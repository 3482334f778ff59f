import NaturalDeduction.Proofs.Proof.Subproofs

set_option autoImplicit false
set_option relaxedAutoImplicit false

namespace NaturalDeduction

theorem split_concat {steps before after : List Step} {s t : Step}
    (h : steps ++ [s] = before ++ t :: after) :
    (before = steps ∧ t = s ∧ after = []) ∨
      ∃ rest, after = rest ++ [s] ∧ steps = before ++ t :: rest := by
  rcases List.eq_nil_or_concat after with rfl | ⟨rest, u, rfl⟩
  · obtain ⟨rfl, same⟩ := List.append_inj' h rfl
    exact Or.inl ⟨rfl, (List.singleton_inj.1 same).symm, rfl⟩
  · rw [List.concat_eq_append, ← List.cons_append, ← List.append_assoc] at h
    obtain ⟨rfl, same⟩ := List.append_inj' h rfl
    cases same
    exact Or.inr ⟨rest, List.concat_eq_append, rfl⟩

def EachStep (holds : List Step → Step → Prop) (steps : List Step) : Prop :=
  ∀ before s after, steps = before ++ s :: after → holds before s

namespace EachStep

variable {holds : List Step → Step → Prop} {steps : List Step} {s : Step}

theorem nil (holds : List Step → Step → Prop) : EachStep holds [] := by
  intro before s after split
  simp at split

theorem concat (each : EachStep holds steps) (new : holds steps s) :
    EachStep holds (steps ++ [s]) := by
  intro before t after split
  rcases split_concat split with ⟨rfl, rfl, _⟩ | ⟨rest, _, earlier⟩
  · exact new
  · exact each before t rest earlier

end EachStep

/-- After a step no step of smaller depth occurs: its subproof is still open. -/
def StillOpen (steps : List Step) (s : Step) : Prop :=
  ∃ before after, steps = before ++ s :: after ∧ ∀ t ∈ after, s.depth ≤ t.depth

namespace StillOpen

variable {steps : List Step} {s a : Step}

theorem last (steps : List Step) (s : Step) : StillOpen (steps ++ [s]) s :=
  ⟨steps, [], rfl, by simp⟩

theorem mem (h : StillOpen steps s) : s ∈ steps := by
  obtain ⟨_, _, rfl, _⟩ := h
  simp

theorem concat_iff : StillOpen (steps ++ [s]) a ↔ a = s ∨ StillOpen steps a ∧ a.depth ≤ s.depth := by
  constructor
  · rintro ⟨before, after, eq, deep⟩
    rcases split_concat eq with ⟨_, same, _⟩ | ⟨rest, rfl, rfl⟩
    · exact Or.inl same
    · refine Or.inr ⟨⟨before, rest, rfl, fun t member => deep t ?_⟩, deep s (by simp)⟩
      exact List.mem_append_left _ member
  · rintro (rfl | ⟨⟨before, after, rfl, deep⟩, le⟩)
    · exact last steps a
    · refine ⟨before, after ++ [s], by simp, ?_⟩
      intro t member
      rcases List.mem_append.1 member with earlier | new
      · exact deep t earlier
      · rw [List.mem_singleton.1 new]
        exact le

theorem trans {before after : List Step} (h : StillOpen (before ++ [s]) a)
    (deep : ∀ t ∈ after, s.depth ≤ t.depth) : StillOpen (before ++ s :: after) a := by
  obtain ⟨front, between, eq, above⟩ := h
  rcases split_concat eq with ⟨rfl, rfl, rfl⟩ | ⟨rest, rfl, rfl⟩
  · exact ⟨front, after, rfl, deep⟩
  · have le : a.depth ≤ s.depth := above s (by simp)
    refine ⟨front, rest ++ s :: after, by simp, ?_⟩
    intro t member
    rcases List.mem_append.1 member with earlier | later
    · exact above t (List.mem_append_left _ earlier)
    · rcases List.mem_cons.1 later with rfl | later
      · exact le
      · exact Nat.le_trans le (deep t later)

end StillOpen

namespace Stacked

variable {steps stack : List Step} {a : Step}

theorem depth_eq (h : Stacked steps stack) {above below : List Step}
    (split : stack = above ++ a :: below) : a.depth = below.length + 1 := by
  induction h generalizing above with
  | nil => simp at split
  | opens _ _ _ depth ih =>
    cases above with
    | nil =>
      cases split
      exact depth
    | cons _ above =>
      cases split
      exact ih rfl
  | @closes _ _ _ top _ _ _ _ _ ih =>
    have under : top :: (above ++ a :: below) = (top :: above) ++ a :: below := rfl
    exact ih (by rw [split, under])
  | continues _ _ _ _ ih => exact ih split

private theorem depth_le (h : Stacked steps stack) (member : a ∈ stack) : a.depth ≤ stack.length := by
  obtain ⟨above, below, split⟩ := List.append_of_mem member
  rw [h.depth_eq split, split, List.length_append, List.length_cons]
  omega

/-- The assumptions that are still in scope are the ones on the stack. -/
theorem stillOpen_iff (h : Stacked steps stack) :
    a.rule = .assumption ∧ StillOpen steps a ↔ a ∈ stack := by
  induction h with
  | nil => simp [StillOpen]
  | @opens steps stack s before rule _ depth ih =>
    rw [StillOpen.concat_iff, List.mem_cons, ← ih]
    constructor
    · rintro ⟨assumed, rfl | ⟨earlier, _⟩⟩
      · exact Or.inl rfl
      · exact Or.inr ⟨assumed, earlier⟩
    · rintro (rfl | ⟨assumed, earlier⟩)
      · exact ⟨rule, Or.inl rfl⟩
      · have le := before.depth_le (ih.1 ⟨assumed, earlier⟩)
        exact ⟨assumed, Or.inr ⟨earlier, by omega⟩⟩
  | @closes steps stack s top before rule _ depth _ ih =>
    rw [StillOpen.concat_iff]
    constructor
    · rintro ⟨assumed, rfl | ⟨earlier, le⟩⟩
      · rw [rule] at assumed
        cases assumed
      · rcases List.mem_cons.1 (ih.1 ⟨assumed, earlier⟩) with rfl | below
        · -- The assumption that is taken off is deeper than the step that discharges it.
          have deeper : a.depth = stack.length + 1 := before.depth_eq (List.nil_append _).symm
          omega
        · exact below
    · intro member
      obtain ⟨assumed, earlier⟩ := ih.2 (List.mem_cons_of_mem _ member)
      obtain ⟨above, below, split⟩ := List.append_of_mem member
      have deep : a.depth = below.length + 1 :=
        before.depth_eq (by rw [split, List.cons_append])
      have height : stack.length = above.length + (below.length + 1) := by
        rw [split, List.length_append, List.length_cons]
      exact ⟨assumed, Or.inr ⟨earlier, by omega⟩⟩
  | @continues steps stack s before rule _ depth ih =>
    rw [StillOpen.concat_iff, ← ih]
    constructor
    · rintro ⟨assumed, rfl | ⟨earlier, _⟩⟩
      · exact absurd assumed rule.1
      · exact ⟨assumed, earlier⟩
    · rintro ⟨assumed, earlier⟩
      have le := before.depth_le (ih.1 ⟨assumed, earlier⟩)
      exact ⟨assumed, Or.inr ⟨earlier, by omega⟩⟩

end Stacked

end NaturalDeduction

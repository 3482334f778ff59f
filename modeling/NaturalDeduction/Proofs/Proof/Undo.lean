import NaturalDeduction.Proofs.Proof.LineOrder

set_option autoImplicit false
set_option relaxedAutoImplicit false

namespace NaturalDeduction.Proof

variable {goal : String} {premises : List String} {p q : Proof} {s t : Step} {id : StepId}
  {rule : Rule} {selected : List StepId} {input : Option String}

/-- The proof that is left after a removal, which is the same one where there was nothing to remove. -/
def without (p : Proof) (id : StepId) : Proof :=
  ((p.remove? id).map Prod.snd).getD p

private theorem remove?_eq_none_iff : p.remove? id = none ↔ ∀ s ∈ p.steps, s.id ≠ id := by
  rw [remove?, Option.map_eq_none_iff, step?, List.find?_eq_none]
  simp

private theorem exists_push (reaches : p.nextId.val ≤ s.id.val) (below : s.id.val < counterLimit) :
    ∃ next, next.val = s.id.val + 1 ∧
      p.push s =
        .ok { p with steps := p.steps ++ [s], depth := s.depth, nextId := next, complete := false } := by
  refine ⟨⟨s.id.val + 1, below⟩, rfl, ?_⟩
  have after : p.nextIdAfter s = .ok ⟨s.id.val + 1, below⟩ := by
    rw [nextIdAfter, if_pos reaches, StepId.next, dif_pos (Nat.succ_le_of_lt below)]
  rw [push, after]
  rfl

private theorem remove?_of_concat (numbered : p.Numbered) (new : s.id = p.nextId) (steps : q.steps = p.steps ++ [s]) :
    q.remove? s.id = some (s, { q with steps := p.steps, depth := p.lastDepth, complete := false }) := by
  have earlier : ∀ t ∈ p.steps, ¬(t.id == s.id) = true := by
    intro t member same
    have given := numbered.given t member
    rw [eq_of_beq same, new] at given
    exact Nat.lt_irrefl _ given
  have found : q.step? s.id = some s := by
    rw [step?, steps, List.find?_append, List.find?_eq_none.2 earlier]
    simp
  have rest : q.steps.eraseP (·.id == s.id) = p.steps := by
    rw [steps, List.eraseP_append_right _ earlier]
    simp
  rw [remove?, found]
  simp only [Option.map_some, rest]
  rfl

private theorem apply_of_renumbered (given : p.apply rule selected input = .ok (some t)) (next : StepId)
    (complete : Bool) :
    apply { p with nextId := next, complete := complete } rule selected input =
      .ok (some { t with id := next }) := by
  obtain ⟨cited, d, count, found, derived, written⟩ := derive_of_apply given
  obtain ⟨line, placed, rfl⟩ := Except.exists_of_map_eq_ok written
  have same : deriveFrom { p with nextId := next, complete := complete } rule selected input = some d :=
    deriveFrom_eq_some.2 ⟨count, cited, found, derived⟩
  have line_eq : lineFor { p with nextId := next, complete := complete } d.placement = .ok line := placed
  rw [apply, same]
  simp only [stepOf, line_eq]
  rfl

private theorem depth_of_remove?_of_ne_last (consistent : p.Consistent) (removed : p.remove? id = some (s, q))
    (other : p.last? ≠ some s) : q.depth = p.depth := by
  obtain ⟨before, after, split, rest, _⟩ := split_of_remove? removed
  rw [depth_of_remove? removed, consistent.depth_eq, lastDepth, lastDepth, last?, last?, rest, split]
  rcases List.eq_nil_or_concat' after with rfl | ⟨after, u, rfl⟩
  · have last : p.last? = some s := by rw [last?, split, List.getLast?_concat]
    exact absurd last other
  · have front : before ++ s :: (after ++ [u]) = (before ++ s :: after) ++ [u] := by simp
    rw [front, ← List.append_assoc, List.getLast?_concat, List.getLast?_concat]

/-- In every proof that comes about by any changes, pushing what a rule gives and removing it again gives the step back
and leaves the proof as it was but for the next step number, which is one higher, and the mark, which is taken off;
the rule then gives the same step again with a number one higher. Removing a step other than the last one keeps the
depth, and removing a number that no step has changes nothing. -/
theorem remove?_of_push_of_reachable (run : Reachable goal premises p) :
    (∀ rule selected input t, p.apply rule selected input = .ok (some t) → t.id.val < counterLimit →
      ∃ next q, next.val = p.nextId.val + 1 ∧ next.val = t.id.val + 1 ∧ p.push t = .ok q ∧
        q.remove? t.id = some (t, { p with nextId := next, complete := false }) ∧
        apply { p with nextId := next, complete := false } rule selected input =
          .ok (some { t with id := next })) ∧
    (∀ s ∈ p.steps, p.last? ≠ some s → ∃ q, p.remove? s.id = some (s, q) ∧ q.depth = p.depth) ∧
    (∀ id, (∀ s ∈ p.steps, s.id ≠ id) → p.remove? id = none ∧ p.without id = p) := by
  have consistent := run.consistent
  refine ⟨?_, ?_, ?_⟩
  · intro rule selected input t given below
    obtain ⟨_, _, _, _, records⟩ := apply_eq_some given
    have new := records.id_eq
    obtain ⟨next, value, pushed⟩ := exists_push (Nat.le_of_eq (by rw [new])) below
    have removed := remove?_of_concat consistent.numbered new (push_eq_ok pushed).2.2.1
    rw [← consistent.depth_eq] at removed
    exact ⟨next, _, by rw [value, new], value, pushed, removed, apply_of_renumbered given next false⟩
  · intro s member other
    obtain ⟨q, removed⟩ : ∃ q, p.remove? s.id = some (s, q) := by
      rw [remove?, consistent.numbered.step?_eq member]
      exact ⟨_, rfl⟩
    exact ⟨q, removed, depth_of_remove?_of_ne_last consistent removed other⟩
  · intro id absent
    have none := remove?_eq_none_iff.2 absent
    exact ⟨none, by rw [without, none]; rfl⟩

/-- The step that closes the inner of two subproofs is removed, and the subproof is open again. -/
theorem remove?_of_push_of_nested_discharge :
    let t : Step := ⟨.short 4, ⟨[1, 2], by decide, by decide⟩, "(r) -> (r)", .impliesIntro, [.short 3], 1,
      false, true, none⟩
    ∃ next q, next.val = 5 ∧ nestedAssumptions.push t = .ok q ∧ q.depth = 1 ∧
      q.remove? t.id = some (t, { nestedAssumptions with nextId := next, complete := false }) := by
  intro t
  have given : nestedAssumptions.apply ⟨.impliesIntro, .introduction, 0⟩ [] none = .ok (some t) := by cbv
  obtain ⟨next, q, value, _, pushed, removed, _⟩ :=
    (remove?_of_push_of_reachable derivable_nestedAssumptions.reachable).1 _ _ _ t given (by decide)
  exact ⟨next, q, value, pushed, (push_eq_ok pushed).2.2.2.1, removed⟩

end NaturalDeduction.Proof

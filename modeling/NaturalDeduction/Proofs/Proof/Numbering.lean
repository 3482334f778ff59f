import NaturalDeduction.Proofs.Proof.LineOrder

/-!
The numbering of the lines of a proof. Each line number is made from the last one alone, without a counter for
each depth; yet the steps of a subproof are numbered one after the other below the line before it, and a step
that closes a subproof has the line after that one, however many subproofs have been opened and closed inside.
-/

set_option autoImplicit false
set_option relaxedAutoImplicit false

namespace NaturalDeduction

/-- The steps that belong to the subproof that an assumption opens and to none inside it: of the assumption and the
steps after it, up to the first that stands less deep, those that stand as deep as the assumption. -/
def Step.ownSteps (a : Step) (after : List Step) : List Step :=
  a :: (after.takeWhile fun t => a.depth ≤ t.depth).filter fun t => t.depth = a.depth

def lastSegments (steps : List Step) : List Nat :=
  (steps.getLast?.map fun s => s.line.segments).getD []

/-- Steps whose lines are numbered one after the other below a line. -/
def NumberedBelow (base : List Nat) (steps : List Step) : Prop :=
  steps.map (fun s => s.line.segments) = (List.range steps.length).map fun i => base ++ [i + 1]

namespace NumberedBelow

variable {base : List Nat} {steps : List Step} {s : Step}

private theorem concat_iff : NumberedBelow base (steps ++ [s]) ↔
    NumberedBelow base steps ∧ s.line.segments = base ++ [steps.length + 1] := by
  unfold NumberedBelow
  rw [List.length_append, List.length_singleton, List.range_succ, List.map_append, List.map_append]
  constructor
  · intro eq
    obtain ⟨front, back⟩ := List.append_inj' eq rfl
    exact ⟨front, List.singleton_inj.1 back⟩
  · rintro ⟨front, back⟩
    rw [front, List.map_singleton, List.map_singleton, back]

private theorem singleton_iff : NumberedBelow base [s] ↔ s.line.segments = base ++ [1] := by
  simp [NumberedBelow]

end NumberedBelow

namespace Step

variable {a s last : Step} {after more before front : List Step}

private theorem ownSteps_of_open (deep : ∀ t ∈ after, a.depth ≤ t.depth) :
    a.ownSteps after = a :: after.filter fun t => t.depth = a.depth := by
  have all : (after.takeWhile fun t => a.depth ≤ t.depth) = after := by
    simpa using deep
  rw [ownSteps, all]

private theorem ownSteps_append_of_deeper (deep : ∀ t ∈ after, a.depth ≤ t.depth)
    (deeper : ∀ t ∈ more, a.depth < t.depth) : a.ownSteps (after ++ more) = a.ownSteps after := by
  have all : ∀ t ∈ after ++ more, a.depth ≤ t.depth :=
    List.forall_mem_append.2 ⟨deep, fun t member => Nat.le_of_lt (deeper t member)⟩
  have none : (more.filter fun t => t.depth = a.depth) = [] := by
    rw [List.filter_eq_nil_iff]
    intro t member same
    have less := deeper t member
    rw [of_decide_eq_true same] at less
    exact Nat.lt_irrefl _ less
  rw [ownSteps_of_open all, ownSteps_of_open deep, List.filter_append, none, List.append_nil]

private theorem ownSteps_append_of_shallow (shallow : s.depth < a.depth) :
    a.ownSteps (after ++ s :: more) = a.ownSteps after := by
  have same : (after ++ s :: more).takeWhile (fun t => a.depth ≤ t.depth) =
      after.takeWhile fun t => a.depth ≤ t.depth := by
    induction after with
    | nil => simp [shallow]
    | cons t after ih => simp [List.takeWhile_cons, ih]
  rw [ownSteps, same, ownSteps]

private theorem ownSteps_concat :
    (∀ t ∈ after, a.depth ≤ t.depth) ∧ s.depth = a.depth ∧
        a.ownSteps (after ++ [s]) = a.ownSteps after ++ [s] ∨
      a.ownSteps (after ++ [s]) = a.ownSteps after := by
  by_cases deep : ∀ t ∈ after, a.depth ≤ t.depth
  · rcases Nat.lt_trichotomy s.depth a.depth with shallow | level | deeper
    · exact Or.inr (ownSteps_append_of_shallow shallow)
    · have all : ∀ t ∈ after ++ [s], a.depth ≤ t.depth :=
        List.forall_mem_append.2 ⟨deep, List.forall_mem_singleton.2 (Nat.le_of_eq level.symm)⟩
      refine Or.inl ⟨deep, level, ?_⟩
      rw [ownSteps_of_open all, ownSteps_of_open deep, List.filter_append]
      simp [level]
    · exact Or.inr (ownSteps_append_of_deeper deep (by simpa using deeper))
  · -- The subproof has been closed by a step that is less deep, and what comes after that does not matter.
    obtain ⟨t, member, shallow⟩ : ∃ t ∈ after, t.depth < a.depth := by simpa using deep
    obtain ⟨inside, outside, rfl⟩ := List.append_of_mem member
    refine Or.inr ?_
    rw [List.append_assoc, List.cons_append, ownSteps_append_of_shallow shallow,
      ownSteps_append_of_shallow shallow]

private theorem exists_ownSteps_eq (split : front ++ [last] = before ++ a :: after)
    (deep : ∀ t ∈ after, a.depth ≤ t.depth) (level : last.depth = a.depth) :
    ∃ own, a.ownSteps after = own ++ [last] := by
  rcases split_concat split with ⟨_, rfl, rfl⟩ | ⟨rest, rfl, _⟩
  · exact ⟨[], rfl⟩
  · refine ⟨a :: rest.filter fun t => t.depth = a.depth, ?_⟩
    rw [ownSteps_of_open deep, List.filter_append]
    simp [level]

private theorem exists_between {outer inner : List Step} {b : Step}
    (eq : before ++ a :: after = outer ++ b :: inner) (less : a.depth < b.depth)
    (deep : ∀ t ∈ inner, b.depth ≤ t.depth) :
    ∃ between, outer = before ++ a :: between ∧ after = between ++ b :: inner := by
  rcases List.append_eq_append_iff.1 eq with ⟨more, front, back⟩ | ⟨more, front, back⟩
  · cases more with
    | nil =>
      cases back
      exact absurd less (Nat.lt_irrefl _)
    | cons _ between =>
      cases back
      exact ⟨between, front, rfl⟩
  · cases more with
    | nil =>
      cases back
      exact absurd less (Nat.lt_irrefl _)
    | cons _ between =>
      cases back
      have under := deep a (by simp)
      omega

end Step

private theorem lastSegments_of_getLast? {steps : List Step} {last : Step} (h : steps.getLast? = some last) :
    lastSegments steps = last.line.segments := by
  rw [lastSegments, h]
  rfl

/-- In every subproof the own steps are numbered below the line before it. -/
def SubproofsNumbered (steps : List Step) : Prop :=
  ∀ before a after, steps = before ++ a :: after → a.rule = .assumption →
    NumberedBelow (lastSegments before) (a.ownSteps after)

namespace Stacked

variable {steps stack : List Step} {last : Step}

private theorem depth_last (h : Stacked steps stack) (final : steps.getLast? = some last) :
    last.depth = stack.length := by
  obtain ⟨front, rfl⟩ := List.getLast?_eq_some_iff.1 final
  obtain ⟨_, _, _, depth, _⟩ := h.of_concat
  exact depth

private theorem depth_before {before after : List Step} {a : Step} (h : Stacked (before ++ a :: after) stack)
    (assumed : a.rule = .assumption) (final : before.getLast? = some last) :
    a.depth = last.depth + 1 := by
  have front : before ++ a :: after = (before ++ [a]) ++ after := by simp
  rw [front] at h
  obtain ⟨next, stacked⟩ := h.of_append
  obtain ⟨under, below, replayed, depth, _⟩ := stacked.of_concat
  have pushed : next = a :: under := by
    rw [Step.replay?, assumed] at replayed
    exact (Option.some.inj replayed).symm
  rw [depth, pushed, List.length_cons, below.depth_last final]

/-- While a subproof directly inside another one is open, the last own step of the outer one is the step just before
the inner assumption. -/
private theorem exists_ownSteps_eq {before after outer inner : List Step} {a opening : Step}
    (h : Stacked (outer ++ opening :: inner) stack) (assumed : opening.rule = .assumption)
    (split : before ++ a :: after = outer ++ opening :: inner)
    (deep : ∀ t ∈ after, a.depth ≤ t.depth) (deeper : ∀ t ∈ inner, opening.depth ≤ t.depth)
    (higher : opening.depth = a.depth + 1) :
    ∃ own prior, a.ownSteps after = own ++ [prior] ∧ outer.getLast? = some prior := by
  have less : a.depth < opening.depth := by omega
  obtain ⟨between, rfl, rfl⟩ := Step.exists_between split less deeper
  have inside : ∀ t ∈ between, a.depth ≤ t.depth := (List.forall_mem_append.1 deep).1
  have within : ∀ t ∈ opening :: inner, a.depth < t.depth :=
    List.forall_mem_cons.2 ⟨less, fun t member => Nat.lt_of_lt_of_le less (deeper t member)⟩
  rcases List.eq_nil_or_concat' (before ++ a :: between) with empty | ⟨front, prior, ends⟩
  · simp at empty
  · have final : (before ++ a :: between).getLast? = some prior := by
      rw [ends, List.getLast?_concat]
    have above := h.depth_before assumed final
    obtain ⟨own, eq⟩ := Step.exists_ownSteps_eq ends.symm inside (by omega)
    exact ⟨own, prior, (Step.ownSteps_append_of_deeper inside within).trans eq, final⟩

end Stacked

namespace Proof

variable {goal : String} {premises : List String} {p q : Proof} {s last : Step} {stack : List Step}

private theorem Writes.segments_of_opens (h : p.Writes s q) (opens : s.rule = .assumption) :
    s.line.segments = lastSegments p.steps ++ [1] := by
  cases final : p.last? with
  | none =>
    have empty : p.steps.getLast? = none := final
    rw [h.line_eq_first final, lastSegments, empty]
    rfl
  | some last =>
    have line := h.line_eq
    rw [lineFor_of_last? final, opens] at line
    rw [lastSegments_of_getLast? final, ← Except.ok.inj line]
    rfl

private theorem Writes.nextSibling_eq (h : p.Writes s q) (final : p.last? = some last)
    (continues : s.rule.placement = .continues) : last.line.nextSibling = .ok s.line := by
  have line := h.line_eq
  rw [lineFor_of_last? final, continues] at line
  exact line

private theorem Writes.afterSubproof_eq (h : p.Writes s q) (final : p.last? = some last)
    (closes : s.rule = .impliesIntro) : last.line.afterSubproof = .ok s.line := by
  have line := h.line_eq
  rw [lineFor_of_last? final, closes] at line
  exact line

/-- A step closes the subproof of the last assumption that is still open, and has the line after the one that
stands just before the assumption. -/
def Resumes (steps : List Step) (s : Step) : Prop :=
  ∃ before opening after rest, steps = before ++ opening :: after ∧
    replay? steps = some (opening :: rest) ∧
    ∀ prior, before.getLast? = some prior → prior.line.nextSibling = .ok s.line

section OpenSubproofs

variable (stacked : Stacked p.steps stack) (height : stack.length = p.depth)
  (numbered : SubproofsNumbered p.steps)

include stacked height numbered

private theorem Writes.resumes (h : p.Writes s q) (closes : s.rule = .impliesIntro) :
    ∃ before opening after rest, p.steps = before ++ opening :: after ∧ stack = opening :: rest ∧
      opening.rule = .assumption ∧ (∀ t ∈ after, opening.depth ≤ t.depth) ∧
      ∀ prior, before.getLast? = some prior → prior.line.nextSibling = .ok s.line := by
  have inside : 0 < p.depth := h.inside closes
  obtain ⟨opening, rest, rfl⟩ := List.exists_cons_of_length_pos (height ▸ inside)
  obtain ⟨assumed, before, after, split, deep⟩ := stacked.stillOpen_iff.2 List.mem_cons_self
  refine ⟨before, opening, after, rest, split, rfl, assumed, deep, ?_⟩
  intro prior final
  -- The last step belongs to the subproof that is closed, so its line ends in a counter below the line of `prior`.
  have member : opening ∈ p.steps := by simp [split]
  obtain ⟨front, last, ends, top⟩ := exists_last?_of_mem member
  have level : last.depth = opening.depth := by
    rw [stacked.depth_last top, stacked.depth_eq (List.nil_append _).symm, List.length_cons]
  obtain ⟨own, eq⟩ := Step.exists_ownSteps_eq (ends.symm.trans split) deep level
  have below := numbered before opening after split assumed
  rw [eq, NumberedBelow.concat_iff, lastSegments_of_getLast? final] at below
  have line := h.afterSubproof_eq top closes
  rw [LineNumber.afterSubproof_eq below.2 prior.line.nonempty] at line
  exact line

private theorem Writes.exists_prior (h : p.Writes s q) {before after : List Step} {a : Step}
    (split : p.steps = before ++ a :: after) (deep : ∀ t ∈ after, a.depth ≤ t.depth)
    (level : s.depth = a.depth) :
    ∃ own prior, a.ownSteps after = own ++ [prior] ∧ prior.line.nextSibling = .ok s.line := by
  have member : a ∈ p.steps := by simp [split]
  obtain ⟨front, last, ends, top⟩ := exists_last?_of_mem member
  have depth : last.depth = p.depth := (stacked.depth_last top).trans height
  have placed := h.depth_eq
  cases placement : s.rule.placement with
  | opens =>
    have below : a.depth ≤ last.depth := by
      rcases split_concat (ends.symm.trans split) with ⟨_, rfl, _⟩ | ⟨rest, rfl, _⟩
      · exact Nat.le_refl _
      · exact deep last (by simp)
    simp only [placement, depthFor] at placed
    omega
  | continues =>
    simp only [placement, depthFor] at placed
    obtain ⟨own, eq⟩ := Step.exists_ownSteps_eq (ends.symm.trans split) deep (by omega)
    exact ⟨own, last, eq, h.nextSibling_eq top placement⟩
  | closes =>
    -- The step closes a subproof inside, and goes on from the step just before that.
    simp only [placement, depthFor] at placed
    have inside := h.depth_pos placement
    obtain ⟨outer, opening, inner, rest, cut, rfl, assumed, deeper, resumes⟩ :=
      h.resumes stacked height numbered (RuleKind.eq_impliesIntro_of_closes placement)
    have higher : opening.depth = a.depth + 1 := by
      have onTop := stacked.depth_eq (List.nil_append _).symm
      rw [List.length_cons] at height
      omega
    rw [cut] at stacked
    obtain ⟨own, prior, eq, final⟩ :=
      stacked.exists_ownSteps_eq assumed (split.symm.trans cut) deep deeper higher
    exact ⟨own, prior, eq, resumes prior final⟩

private theorem Writes.subproofsNumbered (h : p.Writes s q) : SubproofsNumbered q.steps := by
  intro before a after split assumed
  rw [(push_eq_ok h.pushed).2.2.1] at split
  rcases split_concat split with ⟨rfl, rfl, rfl⟩ | ⟨rest, rfl, earlier⟩
  · exact NumberedBelow.singleton_iff.2 (h.segments_of_opens assumed)
  · have below := numbered before a rest earlier assumed
    rcases @Step.ownSteps_concat a s rest with ⟨deep, level, eq⟩ | eq
    · rw [eq, NumberedBelow.concat_iff]
      refine ⟨below, ?_⟩
      obtain ⟨own, prior, ends, next⟩ := h.exists_prior stacked height numbered earlier deep level
      rw [ends, NumberedBelow.concat_iff] at below
      rw [LineNumber.segments_nextSibling below.2 next, ends, List.length_append,
        List.length_singleton]
    · rw [eq]
      exact below

end OpenSubproofs

private theorem rule_of_start {before after : List Step} (begun : start goal premises = .ok p)
    (split : p.steps = before ++ s :: after) : s.rule = .premise := by
  have member : s ∈ p.steps := by simp [split]
  exact ((started_of_start begun).steps s member).1.rule_eq

private theorem Derivable.subproofsNumbered (h : Derivable goal premises p) : SubproofsNumbered p.steps := by
  induction h with
  | start begun =>
    intro before a after split assumed
    have premise := rule_of_start begun split
    rw [assumed] at premise
    cases premise
  | extend before step ih =>
    obtain ⟨stack, stacked, height⟩ := before.stacked
    exact step.writes.subproofsNumbered stacked height ih

private theorem Derivable.resumes (h : Derivable goal premises p) :
    EachStep (fun before s => s.rule = .impliesIntro → Resumes before s) p.steps := by
  induction h with
  | start begun =>
    intro before s after split closes
    have premise := rule_of_start begun split
    rw [closes] at premise
    cases premise
  | @extend r q s before step ih =>
    obtain ⟨stack, stacked, height⟩ := before.stacked
    rw [(push_eq_ok step.writes.pushed).2.2.1]
    refine ih.concat fun closes => ?_
    obtain ⟨outer, opening, inner, rest, split, rfl, _, _, resumes⟩ :=
      step.writes.resumes stacked height before.subproofsNumbered closes
    exact ⟨outer, opening, inner, rest, split, stacked.replay?_eq, resumes⟩

/-- A line has a segment for each subproof around it, and one for the proof as soon as a step stands outside of all
subproofs: until then the proof is within the subproof that it begins with. -/
def SegmentsShowDepth (before : List Step) (s : Step) : Prop :=
  s.line.segments.length = if ∃ t ∈ before ++ [s], t.depth = 0 then s.depth + 1 else s.depth

private theorem Writes.segmentsShowDepth (h : p.Writes s q) (consistent : p.Consistent)
    (each : EachStep SegmentsShowDepth p.steps) : SegmentsShowDepth p.steps s := by
  have depth := consistent.depth_eq
  have placed := h.depth_eq
  unfold SegmentsShowDepth
  have outside : (∃ t ∈ p.steps ++ [s], t.depth = 0) ↔ (∃ t ∈ p.steps, t.depth = 0) ∨ s.depth = 0 := by
    simp only [List.mem_append, List.mem_singleton, or_and_right, exists_or, exists_eq_left]
  simp only [outside]
  cases final : p.last? with
  | none =>
    have flat : p.depth = 0 := by rw [depth, lastDepth, final]; rfl
    have empty : p.steps = [] := List.getLast?_eq_none_iff.1 final
    have single : s.line.segments.length = 1 := by rw [h.line_eq_first final]; rfl
    simp only [empty, List.not_mem_nil, false_and, exists_false, false_or]
    cases placement : s.rule.placement with
    | closes => exact absurd (h.depth_pos placement) (by simp [flat])
    | opens | continues =>
      rw [placement] at placed
      simp only [depthFor] at placed
      split <;> omega
  | some last =>
    rw [lastDepth_of_last? final] at depth
    obtain ⟨front, ends⟩ := List.getLast?_eq_some_iff.1 final
    have before := each front last [] ends
    rw [SegmentsShowDepth, ← ends] at before
    have after := (h.line_after final).2
    have inside := h.depth_pos
    by_cases out : ∃ t ∈ p.steps, t.depth = 0
    · rw [if_pos out] at before
      rw [if_pos (Or.inl out)]
      cases placement : s.rule.placement with
      | continues | opens | closes =>
        simp only [placement, depthFor, Placement.segmentsAfter] at placed after inside
        omega
    · -- No step stands outside yet, so the last one is deep, and only a closing step can come out.
      have deep : last.depth ≠ 0 := fun zero => out ⟨last, List.mem_of_getLast? final, zero⟩
      rw [if_neg out] at before
      simp only [out, false_or]
      cases placement : s.rule.placement with
      | continues | opens | closes =>
        simp only [placement, depthFor, Placement.segmentsAfter] at placed after inside
        split <;> omega

private theorem Derivable.segmentsShowDepth (h : Derivable goal premises p) :
    EachStep SegmentsShowDepth p.steps := by
  have both : p.Consistent ∧ EachStep SegmentsShowDepth p.steps := by
    refine h.induct (P := fun r => r.Consistent ∧ EachStep SegmentsShowDepth r.steps)
      ⟨consistent_blank goal premises, .nil _⟩ ?_
    rintro r s q ⟨consistent, each⟩ writes
    refine ⟨consistent.write writes, ?_⟩
    rw [(push_eq_ok writes.pushed).2.2.1]
    exact each.concat (writes.segmentsShowDepth consistent each)
  exact both.2

/-- Lines that are numbered after Fitch: a subproof is closed by the line after the one before it, its own steps are
numbered below that line, and the segments show how deep a line is. -/
structure FitchNumbered (steps : List Step) : Prop where
  closing : EachStep (fun before s => s.rule = .impliesIntro → Resumes before s) steps
  subproofs : SubproofsNumbered steps
  segments : EachStep SegmentsShowDepth steps

/-- The lines of every proof that comes about by applying rules are numbered after Fitch. -/
theorem fitchNumbered_of_derivable (h : Derivable goal premises p) : FitchNumbered p.steps :=
  ⟨h.resumes, h.subproofsNumbered, h.segmentsShowDepth⟩

/-- Two subproofs, one inside the other, are closed one after the other. -/
theorem fitchNumbered_of_nested_discharges :
    ∃ p, Derivable "p" ["p"] p ∧
      p.steps.map (fun s => s.line.segments) = [[1], [1, 1], [1, 1, 1], [1, 2], [2]] ∧
      FitchNumbered p.steps := by
  let inner : Step :=
    ⟨⟨4, by decide⟩, ⟨[1, 2], by decide, by decide⟩, "(r) -> (r)", .impliesIntro, [⟨3, by decide⟩], 1,
      false, true, none⟩
  let outer : Step :=
    ⟨⟨5, by decide⟩, ⟨[2], by decide, by decide⟩, "(q) -> ((r) -> (r))", .impliesIntro,
      [⟨2, by decide⟩, ⟨4, by decide⟩], 0, false, true, none⟩
  have closed : Derivable "p" ["p"]
      ⟨"p", ["p"], nestedAssumptions.steps ++ [inner], 1, ⟨5, by decide⟩, false⟩ :=
    .extend derivable_nestedAssumptions
      (@Extends.apply _ inner _ ⟨.impliesIntro, .introduction, 0⟩ [] none (by decide) (by cbv) rfl)
  have flat : Derivable "p" ["p"]
      ⟨"p", ["p"], nestedAssumptions.steps ++ [inner, outer], 0, ⟨6, by decide⟩, false⟩ :=
    .extend closed
      (@Extends.apply _ outer _ ⟨.impliesIntro, .introduction, 0⟩ [] none (by decide) (by cbv) rfl)
  exact ⟨_, flat, rfl, fitchNumbered_of_derivable flat⟩

end Proof

end NaturalDeduction

import NaturalDeduction.Proofs.Proof.Changes

set_option autoImplicit false
set_option relaxedAutoImplicit false

namespace NaturalDeduction

def StepId.short (n : Fin 16) : StepId :=
  ⟨n, Nat.le_trans (Nat.le_of_lt n.isLt) (by decide)⟩

namespace LineNumber

variable {l m : LineNumber} {base : List Nat} {j k : Nat}

theorem segments_of_ofGrown {ns : List Nat} (h : ofGrown ns = .ok l) : l.segments = ns := by
  unfold ofGrown ofSegments? at h
  split at h
  · rename_i m valid
    cases h
    split at valid
    · cases valid
      rfl
    · cases valid
  · cases h

private theorem increment_concat (base : List Nat) (k : Nat) :
    increment (base ++ [k]) = base ++ [k + 1] := by
  induction base with
  | nil => rfl
  | cons n base ih =>
    cases base with
    | nil => rfl
    | cons n' base =>
      change n :: increment ((n' :: base) ++ [k]) = n :: ((n' :: base) ++ [k + 1])
      rw [ih]

private theorem exists_segments_eq (l : LineNumber) : ∃ base k, l.segments = base ++ [k] := by
  rcases List.eq_nil_or_concat' l.segments with empty | ends
  · exact absurd empty l.nonempty
  · exact ends

theorem segments_nextSibling (ends : l.segments = base ++ [k]) (h : l.nextSibling = .ok m) :
    m.segments = base ++ [k + 1] := by
  rw [segments_of_ofGrown h, ends, increment_concat]

theorem segments_firstChild (l : LineNumber) : l.firstChild.segments = l.segments ++ [1] :=
  rfl

private theorem segments_afterSubproof_single (ends : l.segments = [k]) (h : l.afterSubproof = .ok m) :
    m.segments = [k + 1] := by
  unfold afterSubproof at h
  rw [ends] at h
  have outermost : l.segments = [] ++ [k] := ends
  exact segments_nextSibling outermost h

theorem afterSubproof_eq (ends : l.segments = base ++ [k]) (inner : base ≠ []) :
    l.afterSubproof = ofGrown (increment base) := by
  have shape : ∃ n n' ns, l.segments = n :: n' :: ns := by
    cases base with
    | nil => exact absurd rfl inner
    | cons n base =>
      cases base with
      | nil => exact ⟨n, k, [], ends⟩
      | cons n' base => exact ⟨n, n', base ++ [k], ends⟩
  obtain ⟨n, n', ns, shape⟩ := shape
  have dropped : l.segments.dropLast = base := by rw [ends, List.dropLast_concat]
  unfold afterSubproof
  split
  · rw [dropped]
  · rename_i other
    exact absurd shape (other n n' ns)

private theorem lt_nextSibling (h : l.nextSibling = .ok m) : l.segments < m.segments := by
  obtain ⟨base, k, ends⟩ := l.exists_segments_eq
  rw [segments_nextSibling ends h, ends]
  exact List.append_left_lt (List.cons_lt_cons_iff.2 (Or.inl (Nat.lt_succ_self k)))

private theorem lt_firstChild (l : LineNumber) : l.segments < l.firstChild.segments := by
  have longer : l.segments ++ [] < l.segments ++ [1] := List.append_left_lt (by decide)
  rwa [List.append_nil, ← segments_firstChild] at longer

private theorem lt_afterSubproof (h : l.afterSubproof = .ok m) : l.segments < m.segments := by
  obtain ⟨base, k, ends⟩ := l.exists_segments_eq
  rcases List.eq_nil_or_concat' base with rfl | ⟨outer, j, rfl⟩
  · rw [segments_afterSubproof_single ends h, ends]
    exact List.cons_lt_cons_iff.2 (Or.inl (Nat.lt_succ_self k))
  · rw [afterSubproof_eq ends (by simp)] at h
    rw [segments_of_ofGrown h, increment_concat, ends, List.append_assoc]
    exact List.append_left_lt (List.cons_lt_cons_iff.2 (Or.inl (Nat.lt_succ_self j)))

private theorem length_nextSibling (h : l.nextSibling = .ok m) : m.segments.length = l.segments.length := by
  rw [segments_of_ofGrown h, length_increment]

private theorem length_firstChild (l : LineNumber) : l.firstChild.segments.length = l.segments.length + 1 := by
  rw [segments_firstChild, List.length_append, List.length_singleton]

private theorem length_afterSubproof (h : l.afterSubproof = .ok m) :
    m.segments.length = max 1 (l.segments.length - 1) := by
  obtain ⟨base, k, ends⟩ := l.exists_segments_eq
  by_cases inner : base = []
  · subst inner
    rw [segments_afterSubproof_single ends h, ends]
    rfl
  · have positive := List.length_pos_iff.2 inner
    rw [afterSubproof_eq ends inner] at h
    rw [segments_of_ofGrown h, length_increment, ends, List.length_append, List.length_singleton]
    omega

private theorem compare_eq_lt_iff : l.compare m = .lt ↔ l.segments < m.segments :=
  compareOfLessAndEq_eq_lt

end LineNumber

def Placement.segmentsAfter : Placement → Nat → Nat
  | .opens, n => n + 1
  | .continues, n => n
  | .closes, n => max 1 (n - 1)

namespace Proof

variable {goal : String} {premises : List String} {p q : Proof} {s t last : Step} {id : StepId}

theorem lineFor_of_empty (empty : p.last? = none) (placement : Placement) :
    p.lineFor placement = .ok .first := by
  cases placement with
  | continues => simp only [lineFor, nextLine, empty]
  | opens => simp only [lineFor, subproofLine, empty]
  | closes => simp only [lineFor, closingLine, empty]

theorem lineFor_of_last? (final : p.last? = some last) (placement : Placement) :
    p.lineFor placement =
      match placement with
      | .continues => last.line.nextSibling
      | .opens => .ok last.line.firstChild
      | .closes => last.line.afterSubproof := by
  cases placement with
  | continues => simp only [lineFor, nextLine, final]
  | opens => simp only [lineFor, subproofLine, final]
  | closes => simp only [lineFor, closingLine, final]

theorem Writes.line_eq_first (h : p.Writes s q) (empty : p.last? = none) : s.line = .first := by
  have line := h.line_eq
  rw [lineFor_of_empty empty] at line
  exact (Except.ok.inj line).symm

/-- A step goes on from the last line to a later one, with the segments that its placement makes. -/
theorem Writes.line_after (h : p.Writes s q) (final : p.last? = some last) :
    last.line.segments < s.line.segments ∧
      s.line.segments.length = s.rule.placement.segmentsAfter last.line.segments.length := by
  have line := h.line_eq
  rw [lineFor_of_last? final] at line
  cases placement : s.rule.placement with
  | continues =>
    rw [placement] at line
    exact ⟨LineNumber.lt_nextSibling line, LineNumber.length_nextSibling line⟩
  | opens =>
    rw [placement] at line
    rw [← Except.ok.inj line]
    exact ⟨LineNumber.lt_firstChild _, LineNumber.length_firstChild _⟩
  | closes =>
    rw [placement] at line
    exact ⟨LineNumber.lt_afterSubproof line, LineNumber.length_afterSubproof line⟩

/-- The lines of the steps are in order, and they have a segment for each subproof around the step and one for the
proof, which may be missing. -/
structure LinesInOrder (p : Proof) : Prop where
  increasing : p.steps.Pairwise fun s t => s.line.segments < t.line.segments
  length : ∀ s ∈ p.steps,
    s.line.segments.length = s.depth ∨ s.line.segments.length = s.depth + 1

private theorem LinesInOrder.lt_of_mem (ordered : p.LinesInOrder) (h : p.Writes s q) (member : t ∈ p.steps) :
    t.line.segments < s.line.segments := by
  obtain ⟨front, last, split, final⟩ := exists_last?_of_mem member
  have later := (h.line_after final).1
  have increasing := ordered.increasing
  rw [split, List.pairwise_append] at increasing
  rw [split] at member
  rcases List.mem_append.1 member with earlier | here
  · exact List.lt_trans (increasing.2.2 t earlier last (List.mem_singleton.2 rfl)) later
  · rw [List.mem_singleton.1 here]
    exact later

private theorem LinesInOrder.length_line (ordered : p.LinesInOrder) (consistent : p.Consistent)
    (h : p.Writes s q) :
    s.line.segments.length = s.depth ∨ s.line.segments.length = s.depth + 1 := by
  have depth := consistent.depth_eq
  rw [h.depth_eq]
  cases final : p.last? with
  | none =>
    rw [lastDepth, final] at depth
    rw [h.line_eq_first final]
    cases placement : s.rule.placement with
    | continues => exact Or.inr (congrArg (· + 1) depth.symm)
    | opens => exact Or.inl (congrArg (· + 1) depth.symm)
    | closes => exact absurd (h.depth_pos placement) (by simp [depth])
  | some last =>
    rw [lastDepth_of_last? final] at depth
    have before := ordered.length last (List.mem_of_getLast? final)
    rw [(h.line_after final).2]
    cases placement : s.rule.placement with
    | continues =>
      simp only [Placement.segmentsAfter, depthFor]
      omega
    | opens =>
      simp only [Placement.segmentsAfter, depthFor]
      omega
    | closes =>
      have inside := h.depth_pos placement
      simp only [Placement.segmentsAfter, depthFor]
      omega

private theorem LinesInOrder.write (ordered : p.LinesInOrder) (consistent : p.Consistent)
    (h : p.Writes s q) : q.LinesInOrder := by
  constructor
  · rw [(push_eq_ok h.pushed).2.2.1, List.pairwise_append]
    refine ⟨ordered.increasing, List.pairwise_singleton _ _, ?_⟩
    intro t member u new
    rw [List.mem_singleton.1 new]
    exact ordered.lt_of_mem h member
  · intro t member
    rcases (mem_steps_of_push h.pushed).1 member with earlier | rfl
    · exact ordered.length t earlier
    · exact ordered.length_line consistent h

private theorem LinesInOrder.remove (ordered : p.LinesInOrder) (h : p.remove? id = some (s, q)) :
    q.LinesInOrder := by
  have fewer := steps_of_remove? h
  exact ⟨ordered.increasing.sublist fewer, fun t member => ordered.length t (fewer.subset member)⟩

private theorem Reachable.linesInOrder (h : Reachable goal premises p) : p.LinesInOrder := by
  refine h.consistent_induct ?_ ?_ ?_ ?_
  · exact ⟨List.Pairwise.nil, by simp [blank]⟩
  · intro r s q consistent ordered writes
    exact ordered.write consistent writes
  · intro r id s q ordered removed
    exact ordered.remove removed
  · intro r ordered
    exact ⟨ordered.increasing, ordered.length⟩

/-- Whatever changes a proof has gone through, its lines are in order, so that no two are the same, and a line has
as many segments as there are subproofs around it or one more. -/
theorem lines_increasing_of_reachable (h : Reachable goal premises p) :
    (p.steps.Pairwise fun s t => s.line.compare t.line = .lt) ∧ (p.steps.map Step.line).Nodup ∧
      ∀ s ∈ p.steps,
        s.line.segments.length = s.depth ∨ s.line.segments.length = s.depth + 1 := by
  have ordered := h.linesInOrder
  refine ⟨?_, ?_, ordered.length⟩
  · exact ordered.increasing.imp LineNumber.compare_eq_lt_iff.2
  · rw [List.Nodup, List.pairwise_map]
    refine ordered.increasing.imp fun {s t} less same => ?_
    rw [same] at less
    exact List.lt_irrefl _ less

def nestedAssumptions : Proof where
  goal := "p"
  premises := ["p"]
  steps :=
    [⟨.first, .first, "p", .premise, [], 0, false, false, none⟩,
     ⟨.short 2, .firstChild .first, "q", .assumption, [], 1, true, false, none⟩,
     ⟨.short 3, .firstChild (.firstChild .first), "r", .assumption, [], 2, true, false, none⟩]
  depth := 2
  nextId := .short 4
  complete := false

theorem derivable_nestedAssumptions : Derivable "p" ["p"] nestedAssumptions := by
  have opened : Derivable "p" ["p"]
      ⟨"p", ["p"], nestedAssumptions.steps.take 2, 1, .short 3, false⟩ :=
    .extend (.start rfl)
      (@Extends.apply _
        ⟨.short 2, .firstChild .first, "q", .assumption, [], 1, true, false, none⟩ _
        ⟨.assumption, .assumption, 0⟩ [] (some "q") (by decide) (by cbv) rfl)
  exact .extend opened
    (@Extends.apply _
      ⟨.short 3, .firstChild (.firstChild .first), "r", .assumption, [], 2, true, false, none⟩ _
      ⟨.assumption, .assumption, 0⟩ [] (some "r") (by decide) (by cbv) rfl)

/-- The outer of two assumptions is removed before the inner one is discharged. -/
theorem lines_increasing_of_removed_assumption :
    ∃ p, Reachable "p" ["p"] p ∧
      p.steps.map (fun s => s.line.segments) = [[1], [1, 1, 1], [1, 2]] ∧
      (p.steps.Pairwise fun s t => s.line.compare t.line = .lt) ∧ (p.steps.map Step.line).Nodup := by
  have removed : Reachable "p" ["p"]
      ⟨"p", ["p"], nestedAssumptions.steps.eraseIdx 1, 2, ⟨4, by decide⟩, false⟩ :=
    @Reachable.remove _ _ _ _ ⟨2, by decide⟩ _ derivable_nestedAssumptions.reachable rfl
  let discharged : Step :=
    ⟨⟨4, by decide⟩, ⟨[1, 2], by decide, by decide⟩, "(r) -> (r)", .impliesIntro, [⟨3, by decide⟩], 1,
      false, true, none⟩
  have closed : Reachable "p" ["p"]
      ⟨"p", ["p"], nestedAssumptions.steps.eraseIdx 1 ++ [discharged], 1, ⟨5, by decide⟩, false⟩ :=
    .extend removed
      (@Extends.apply _ discharged _ ⟨.impliesIntro, .introduction, 0⟩ [] none (by decide) (by cbv) rfl)
  obtain ⟨increasing, different, _⟩ := lines_increasing_of_reachable closed
  exact ⟨_, closed, rfl, increasing, different⟩

end Proof

end NaturalDeduction

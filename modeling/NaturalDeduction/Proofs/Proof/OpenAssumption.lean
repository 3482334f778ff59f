import NaturalDeduction.Proofs.Proof.LineOrder

/-!
The assumption that is found open, also after steps have been removed. The search for it looks at depths and marks
only, so that it goes back to the assumption of a closed subproof where the assumption of the open one has been removed
from before steps of its subproof. As long as that is not done only assumptions lead deeper, and then the assumption
that is found is the one that the last step stands under.
-/

set_option autoImplicit false
set_option relaxedAutoImplicit false

namespace NaturalDeduction

/-- The depth at which a step stands, not counting the subproof that it opens. -/
def Step.outerDepth (s : Step) : Nat :=
  if s.opensSubproof then s.depth - 1 else s.depth

private theorem Step.outerDepth_of_opens {s : Step} (h : s.opensSubproof = true) :
    s.outerDepth = s.depth - 1 :=
  if_pos h

private theorem Step.outerDepth_of_not_opens {s : Step} (h : s.opensSubproof = false) :
    s.outerDepth = s.depth :=
  if_neg (Bool.eq_false_iff.1 h)

namespace Proof

variable {goal : String} {premises : List String} {p q : Proof} {s t a : Step} {id : StepId}

/-- What is left of the subproof in which the proof stands: the steps at its end that are not less deep. -/
def innermost (p : Proof) : List Step :=
  p.steps.rtakeWhile fun s => p.depth ≤ s.depth

private theorem split_innermost (p : Proof) :
    ∃ front, p.steps = front ++ p.innermost ∧ (∀ s ∈ p.innermost, p.depth ≤ s.depth) ∧
      ∀ s ∈ front.getLast?, s.depth < p.depth := by
  refine ⟨_, List.rdropWhile_append_rtakeWhile.symm, fun s member => ?_, fun s last => ?_⟩
  · simpa using List.mem_rtakeWhile_imp member
  · obtain ⟨nonempty, rfl⟩ := List.mem_getLast?_eq_getLast last
    simpa using List.rdropWhile_last_not _ _ nonempty

private theorem openAssumption?_eq_some (h : p.openAssumption? = some a) :
    a.opensSubproof = true ∧ a.depth = p.depth ∧ ∃ before after, p.steps = before ++ a :: after ∧
      ∀ t ∈ after, ¬(t.opensSubproof = true ∧ t.depth = p.depth) := by
  have deep := Nat.ne_of_gt (depth_pos_of_openAssumption? h)
  rw [openAssumption?, if_neg deep] at h
  obtain ⟨found, later, earlier, split, others⟩ := List.find?_eq_some_iff_append.1 h
  simp only [Bool.and_eq_true, beq_iff_eq] at found
  refine ⟨found.1, found.2, earlier.reverse, later.reverse, ?_, fun t member => ?_⟩
  · simpa using congrArg List.reverse split
  · rintro ⟨opens, depth⟩
    have other := others t (List.mem_reverse.1 member)
    simp [opens, depth] at other

private theorem stillOpen_iff_mem_innermost (h : p.openAssumption? = some a) :
    StillOpen p.steps a ↔ a ∈ p.innermost := by
  obtain ⟨_, depth, _⟩ := openAssumption?_eq_some h
  obtain ⟨front, whole, deep, shallow⟩ := p.split_innermost
  constructor
  · rintro ⟨before, after, split, above⟩
    rcases List.append_eq_append_iff.1 (whole.symm.trans split) with
      ⟨between, _, inside⟩ | ⟨between, outside, same⟩
    · simp [inside]
    · rcases List.eq_nil_or_concat' between with rfl | ⟨between, x, rfl⟩
      · rw [List.nil_append] at same
        simp [← same]
      · -- the step before the innermost ones is less deep, and yet one of those after the assumption
        have less : x.depth < p.depth := shallow x (by simp [outside])
        have member : x ∈ a :: after := by simp [same]
        rcases List.mem_cons.1 member with rfl | later
        · omega
        · have le := above x later
          omega
  · intro member
    obtain ⟨before, after, inside⟩ := List.append_of_mem member
    refine ⟨front ++ before, after, by rw [whole, inside, List.append_assoc], fun t later => ?_⟩
    rw [depth]
    exact deep t (by simp [inside, later])

private theorem mem_innermost_iff (h : p.openAssumption? = some a) :
    a ∈ p.innermost ↔ ∃ t ∈ p.innermost, t.opensSubproof = true ∧ t.depth = p.depth := by
  obtain ⟨opens, depth, before, after, split, others⟩ := openAssumption?_eq_some h
  refine ⟨fun member => ⟨a, member, opens, depth⟩, ?_⟩
  rintro ⟨t, member, heads⟩
  obtain ⟨front, whole, _⟩ := p.split_innermost
  rcases List.append_eq_append_iff.1 (whole.symm.trans split) with
    ⟨between, _, inside⟩ | ⟨between, _, same⟩
  · simp [inside]
  · cases between with
    | nil =>
      rw [List.nil_append] at same
      simp [← same]
    | cons x between =>
      injection same with _ rest
      exact absurd heads (others t (by simp [rest, member]))

/-- Only assumptions lead deeper: a step stands no deeper than the step before it, but for the subproof that it
opens. -/
def Headed (p : Proof) : Prop :=
  p.steps.IsChain fun s t => t.outerDepth ≤ s.depth

private theorem Headed.exists_mem_innermost (headed : p.Headed) (consistent : p.Consistent)
    (h : p.openAssumption? = some a) :
    ∃ t ∈ p.innermost, t.opensSubproof = true ∧ t.depth = p.depth := by
  obtain ⟨opens, depth, _⟩ := openAssumption?_eq_some h
  have member := mem_of_openAssumption? h
  obtain ⟨front, whole, deep, shallow⟩ := p.split_innermost
  rcases List.eq_nil_or_concat' front with rfl | ⟨front, x, rfl⟩
  · rw [whole, List.nil_append] at member
    exact ⟨a, member, opens, depth⟩
  · have less : x.depth < p.depth := shallow x (by simp)
    cases inside : p.innermost with
    | nil =>
      have last : p.last? = some x := by rw [last?, whole, inside, List.append_nil, List.getLast?_concat]
      rw [consistent.depth_eq, lastDepth_of_last? last] at less
      exact absurd less (Nat.lt_irrefl _)
    | cons y rest =>
      have le : p.depth ≤ y.depth := deep y (by simp [inside])
      have follows : y.outerDepth ≤ x.depth := by
        rw [Headed, whole, inside, List.append_assoc] at headed
        exact (List.isChain_append_cons_cons.1 headed).2.1
      refine ⟨y, List.mem_cons_self, ?_⟩
      cases marked : y.opensSubproof with
      | false =>
        rw [Step.outerDepth_of_not_opens marked] at follows
        omega
      | true =>
        rw [Step.outerDepth_of_opens marked] at follows
        exact ⟨rfl, by omega⟩

private theorem Started.headed (started : Started goal premises p) : p.Headed := by
  refine (List.pairwise_of_forall_mem_list fun s _ t member => ?_).isChain
  have premise := (started.steps t member).1
  rw [Step.outerDepth_of_not_opens premise.opens_eq, premise.depth_eq]
  exact Nat.zero_le _

private theorem Records.outerDepth_le {kind : RuleKind} {d : Derivation} (h : p.Records kind d s) :
    s.outerDepth ≤ p.depth := by
  have depth := h.depth_eq
  have marked := h.opens_eq
  cases placement : kind.placement with
  | continues =>
    rw [placement] at depth marked
    rw [Step.outerDepth_of_not_opens marked, depth]
    exact Nat.le_refl _
  | opens =>
    rw [placement] at depth marked
    rw [Step.outerDepth_of_opens marked, depth]
    exact Nat.le_refl _
  | closes =>
    rw [placement] at depth marked
    rw [Step.outerDepth_of_not_opens marked, depth]
    exact Nat.sub_le _ _

private theorem Headed.extend (headed : p.Headed) (consistent : p.Consistent) (h : p.Extends s q) :
    q.Headed := by
  obtain ⟨kind, _, _, d, _, records, steps, _⟩ := h.recorded
  rw [Headed, steps, List.isChain_append]
  refine ⟨headed, List.isChain_singleton _, ?_⟩
  intro last final t new
  cases new
  rw [← lastDepth_of_last? final, ← consistent.depth_eq]
  exact records.outerDepth_le

/-- A step is the assumption of a subproof in which the next step stands. -/
def Heads (p : Proof) (s : Step) : Prop :=
  s.opensSubproof = true ∧
    ∃ before t after, p.steps = before ++ s :: t :: after ∧ s.depth ≤ t.outerDepth

private theorem Headed.remove (headed : p.Headed) (h : p.remove? id = some (s, q)) (spared : ¬p.Heads s) :
    q.Headed := by
  obtain ⟨before, after, split, rest, _⟩ := split_of_remove? h
  rw [Headed, split, List.isChain_append] at headed
  obtain ⟨front, back, joint⟩ := headed
  rw [Headed, rest, List.isChain_append]
  refine ⟨front, back.tail, fun x last t first => ?_⟩
  have enters : s.outerDepth ≤ x.depth := joint x last s rfl
  cases after with
  | nil => cases first
  | cons u after =>
    cases first
    have leaves : t.outerDepth ≤ s.depth := (List.isChain_cons_cons.1 back).1
    cases marked : s.opensSubproof with
    | false =>
      rw [Step.outerDepth_of_not_opens marked] at enters
      exact Nat.le_trans leaves enters
    | true =>
      have outside : ¬s.depth ≤ t.outerDepth := fun inside =>
        spared ⟨marked, before, t, after, split, inside⟩
      rw [Step.outerDepth_of_opens marked] at enters
      omega

/-- The proofs that come about by any changes if no assumption is removed from before a step of its subproof. -/
inductive Tidy (goal : String) (premises : List String) : Proof → Prop
  | start {p : Proof} (begun : start goal premises = .ok p) : Tidy goal premises p
  | extend {p q : Proof} {s : Step} (before : Tidy goal premises p) (step : p.Extends s q) :
      Tidy goal premises q
  | remove {p q : Proof} {id : StepId} {s : Step} (before : Tidy goal premises p)
      (removed : p.remove? id = some (s, q)) (spared : ¬p.Heads s) : Tidy goal premises q
  | mark {p : Proof} (before : Tidy goal premises p) : Tidy goal premises p.markComplete
  | reset {p q : Proof} (before : Tidy goal premises p) (again : p.reset = .ok q) :
      Tidy goal premises q

private theorem Tidy.reachable (h : Tidy goal premises p) : Reachable goal premises p := by
  induction h with
  | start begun => exact .start begun
  | extend _ step ih => exact .extend ih step
  | remove _ removed _ ih => exact .remove ih removed
  | mark _ ih => exact .mark ih
  | reset _ again ih => exact .reset ih again

private theorem Tidy.headed (h : Tidy goal premises p) : p.Headed := by
  induction h with
  | start begun => exact (started_of_start begun).headed
  | extend before step ih => exact ih.extend before.reachable.consistent step
  | remove _ removed spared ih => exact ih.remove removed spared
  | mark _ ih => exact ih
  | reset _ again _ => exact (started_of_start again).headed

private theorem Derivable.tidy (h : Derivable goal premises p) : Tidy goal premises p := by
  induction h with
  | start begun => exact .start begun
  | extend _ step ih => exact .extend ih step

/-- When the assumption that is found open is so. No step after it is less deep just if an assumption at the depth of the
proof is left of the subproof in which the proof stands, and this is so whatever steps are removed, unless an assumption
is removed from before a step of its subproof. It is the assumption that an implication introduction discharges. -/
theorem stillOpen_iff_of_openAssumption? (opened : p.openAssumption? = some a) :
    (StillOpen p.steps a ↔ ∃ t ∈ p.innermost, t.opensSubproof = true ∧ t.depth = p.depth) ∧
    (∀ goal premises, Tidy goal premises p → StillOpen p.steps a) ∧
    ∀ rule selected input s, rule.kind = .impliesIntro →
      p.apply rule selected input = .ok (some s) → s.dependencies.head? = some a.id := by
  have left := (stillOpen_iff_mem_innermost opened).trans (mem_innermost_iff opened)
  refine ⟨left, fun goal premises tidy => ?_, fun rule selected input s closes given => ?_⟩
  · exact left.2 (tidy.headed.exists_mem_innermost tidy.reachable.consistent opened)
  · obtain ⟨_, d, _, derived, records⟩ := apply_eq_some given
    rw [closes] at derived
    obtain ⟨opening, last, found, _, _, _, _, dependencies⟩ := Derivation.discharge_eq_some derived
    cases opened.symm.trans found
    rw [records.dependencies_eq, dependencies]
    split <;> rfl

/-- The premise before two assumptions is removed, and the inner assumption is still the open one. -/
theorem stillOpen_of_removed_premise :
    ∃ s q a, nestedAssumptions.remove? .first = some (s, q) ∧ Tidy "p" ["p"] q ∧
      q.openAssumption? = some a ∧ a.formula = "r" ∧ StillOpen q.steps a := by
  obtain ⟨s, q, removed, rule, opened⟩ : ∃ s q, nestedAssumptions.remove? .first = some (s, q) ∧
      s.opensSubproof = false ∧
      q.openAssumption? = some
        ⟨.short 3, .firstChild (.firstChild .first), "r", .assumption, [], 2, true, false, none⟩ :=
    ⟨_, _, rfl, rfl, rfl⟩
  have spared : ¬nestedAssumptions.Heads s := by
    rintro ⟨opens, _⟩
    rw [rule] at opens
    cases opens
  have tidy : Tidy "p" ["p"] q := .remove derivable_nestedAssumptions.tidy removed spared
  exact ⟨s, q, _, removed, tidy, opened, rfl, (stillOpen_iff_of_openAssumption? opened).2.1 _ _ tidy⟩

/-- A subproof is closed, and in a second one a part is taken out of its assumption. Then that assumption is removed
from before the part, and the first one is found open and can be discharged again, although its subproof is closed. -/
theorem discharged_assumption_is_found_open :
    let assumed : Step := ⟨.first, .first, "T", .assumption, [], 1, true, false, none⟩
    let closing : Step := ⟨.short 2, ⟨[2], by decide, by decide⟩, "(T) -> (T)", .impliesIntro, [.first], 0,
      false, true, none⟩
    let reopened : Step := ⟨.short 3, ⟨[2, 1], by decide, by decide⟩, "F ^ F", .assumption, [], 1, true,
      false, none⟩
    let part : Step := ⟨.short 4, ⟨[2, 2], by decide, by decide⟩, "F", .andElimLeft, [.short 3], 1, false,
      false, none⟩
    let p : Proof := ⟨"T -> F", [], [assumed, closing, reopened, part], 1, .short 5, false⟩
    ∃ q again, Derivable "T -> F" [] p ∧ p.remove? (.short 3) = some (reopened, q) ∧
      q.openAssumption? = some assumed ∧ ¬StillOpen q.steps assumed ∧
      ⟨.impliesIntro, .introduction, 0⟩ ∈ Rule.table ∧
      q.apply ⟨.impliesIntro, .introduction, 0⟩ [] none = .ok (some again) ∧
      again.formula = "(T) -> (F)" ∧ again.dependencies = [assumed.id, part.id] := by
  intro assumed closing reopened part p
  have first : Derivable "T -> F" [] ⟨"T -> F", [], [assumed], 1, .short 2, false⟩ :=
    .extend (.start rfl)
      (@Extends.apply _ assumed _ ⟨.assumption, .assumption, 0⟩ [] (some "T") (by decide) (by cbv) rfl)
  have second : Derivable "T -> F" [] ⟨"T -> F", [], [assumed, closing], 0, .short 3, false⟩ :=
    .extend first
      (@Extends.apply _ closing _ ⟨.impliesIntro, .introduction, 0⟩ [] none (by decide) (by cbv) rfl)
  have third : Derivable "T -> F" [] ⟨"T -> F", [], [assumed, closing, reopened], 1, .short 4, false⟩ :=
    .extend second
      (@Extends.apply _ reopened _ ⟨.assumption, .assumption, 0⟩ [] (some "F ^ F") (by decide) (by cbv) rfl)
  have run : Derivable "T -> F" [] p :=
    .extend third
      (@Extends.apply _ part _ ⟨.andElimLeft, .elimination, 1⟩ [.short 3] none (by decide) (by cbv) rfl)
  let q : Proof := ⟨"T -> F", [], [assumed, closing, part], 1, .short 5, false⟩
  have opened : q.openAssumption? = some assumed := rfl
  have lost : ¬StillOpen q.steps assumed := by
    rw [stillOpen_iff_mem_innermost opened]
    decide
  let again : Step := ⟨.short 5, ⟨[3], by decide, by decide⟩, "(T) -> (F)", .impliesIntro,
    [.first, .short 4], 0, false, true, none⟩
  exact ⟨q, again, run, rfl, opened, lost, by decide, by cbv, rfl, rfl⟩

end Proof

end NaturalDeduction

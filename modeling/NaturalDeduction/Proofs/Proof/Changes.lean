import NaturalDeduction.Proofs.Proof.Citations

set_option autoImplicit false
set_option relaxedAutoImplicit false

namespace NaturalDeduction

theorem RuleKind.eq_impliesIntro_of_closes {kind : RuleKind} (h : kind.placement = .closes) :
    kind = .impliesIntro := by
  cases kind with
  | impliesIntro => rfl
  | _ => cases h

namespace Proof

variable {goal : String} {premises : List String} {p q r : Proof} {s t : Step} {id : StepId}

def lastDepth (p : Proof) : Nat :=
  (p.last?.map Step.depth).getD 0

theorem lastDepth_of_last? (h : p.last? = some s) : p.lastDepth = s.depth := by
  rw [lastDepth, h]
  rfl

theorem exists_last?_of_mem (member : s ∈ p.steps) :
    ∃ front last, p.steps = front ++ [last] ∧ p.last? = some last := by
  rcases List.eq_nil_or_concat' p.steps with empty | ⟨front, last, split⟩
  · rw [empty] at member
    cases member
  · exact ⟨front, last, split, by rw [last?, split, List.getLast?_concat]⟩

/-- A step is written down as the next line of a proof: it is a premise or what a rule gives. -/
structure Writes (p : Proof) (s : Step) (q : Proof) : Prop where
  id_eq : s.id = p.nextId
  line_eq : p.lineFor s.rule.placement = .ok s.line
  depth_eq : s.depth = p.depthFor s.rule.placement
  cites : ∀ id ∈ s.dependencies, ∃ c ∈ p.steps, c.id = id
  inside : s.rule = .impliesIntro → 0 < p.depth
  pushed : p.push s = .ok q

theorem premiseStep_eq_ok {formula : String} (h : p.premiseStep formula = .ok s) :
    s.id = p.nextId ∧ s.rule = .premise ∧ p.nextLine = .ok s.line ∧ s.depth = 0 ∧
      s.dependencies = [] := by
  obtain ⟨line, given, rfl⟩ := Except.exists_of_map_eq_ok h
  exact ⟨rfl, rfl, given, rfl, rfl⟩

theorem Writes.depth_pos (h : p.Writes s q) (closes : s.rule.placement = .closes) : 0 < p.depth :=
  h.inside (RuleKind.eq_impliesIntro_of_closes closes)

private theorem writes_of_pushPremise {formula : String} (flat : p.depth = 0)
    (h : p.pushPremise formula = .ok q) : ∃ s, p.Writes s q ∧ q.depth = 0 := by
  obtain ⟨s, written, pushed⟩ := Except.exists_of_bind_eq_ok h
  obtain ⟨number, rule, line, depth, dependencies⟩ := premiseStep_eq_ok written
  have placement : s.rule.placement = .continues := by rw [rule]; rfl
  refine ⟨s, ⟨number, ?_, ?_, ?_, ?_, pushed⟩, (push_eq_ok pushed).2.2.2.1.trans depth⟩
  · rw [placement]
    exact line
  · rw [placement, depth]
    exact flat.symm
  · simp [dependencies]
  · simp [rule]

theorem depth_pos_of_openAssumption? (h : p.openAssumption? = some s) : 0 < p.depth := by
  unfold openAssumption? at h
  split at h
  · cases h
  · rename_i deep
    exact Nat.pos_of_ne_zero deep

private theorem exists_of_mem_dependencies {rule : Rule} {selected : List StepId} {input : Option String}
    (listed : rule ∈ Rule.table) (given : p.apply rule selected input = .ok (some s))
    (member : id ∈ s.dependencies) : ∃ c ∈ p.steps, c.id = id := by
  by_cases closing : rule.kind = .impliesIntro
  · obtain ⟨cited, d, _, derived, records⟩ := apply_eq_some given
    rw [closing] at derived
    obtain ⟨opening, last, opened, final, _, _, _, dependencies⟩ :=
      Derivation.discharge_eq_some derived
    rw [records.dependencies_eq, dependencies] at member
    have two : id = opening.id ∨ id = last.id := by
      split at member
      · exact Or.inl (List.mem_singleton.1 member)
      · simpa using member
    rcases two with rfl | rfl
    · exact ⟨opening, mem_of_openAssumption? opened, rfl⟩
    · exact ⟨last, List.mem_of_getLast? final, rfl⟩
  · obtain ⟨cites, exist⟩ := dependencies_of_apply listed closing given
    rw [cites] at member
    exact exist id member

theorem Extends.writes (h : p.Extends s q) : p.Writes s q := by
  obtain ⟨listed, given, pushed⟩ := h
  obtain ⟨_, d, _, derived, records⟩ := apply_eq_some given
  have line := line_of_apply given
  rw [← records.rule_eq] at line
  refine ⟨records.id_eq, line, ?_, fun _ => exists_of_mem_dependencies listed given, ?_, pushed⟩
  · rw [records.rule_eq]
    exact records.depth_eq
  · intro closing
    rw [← records.rule_eq, closing] at derived
    obtain ⟨_, _, opened, _⟩ := Derivation.discharge_eq_some derived
    exact depth_pos_of_openAssumption? opened

theorem remove?_eq_some (h : p.remove? id = some (s, q)) :
    p.step? id = some s ∧
      q = { p with
        steps := p.steps.eraseP (·.id == id)
        depth := ((p.steps.eraseP (·.id == id)).getLast?.map Step.depth).getD 0
        complete := false } := by
  obtain ⟨t, found, eq⟩ := Option.map_eq_some_iff.1 h
  cases eq
  exact ⟨found, rfl⟩

theorem split_of_remove? (h : p.remove? id = some (s, q)) :
    ∃ before after, p.steps = before ++ s :: after ∧ q.steps = before ++ after ∧ s.id = id := by
  obtain ⟨found, rfl⟩ := remove?_eq_some h
  obtain ⟨match_id, before, after, split, others⟩ := List.find?_eq_some_iff_append.1 found
  refine ⟨before, after, split, ?_, by simpa using match_id⟩
  have earlier : ∀ t ∈ before, ¬(t.id == id) = true := by simpa using others
  change p.steps.eraseP (·.id == id) = before ++ after
  rw [split, List.eraseP_append_right _ earlier]
  simp [match_id]

theorem steps_of_remove? (h : p.remove? id = some (s, q)) : q.steps.Sublist p.steps := by
  obtain ⟨_, rfl⟩ := remove?_eq_some h
  exact List.eraseP_sublist

theorem depth_of_remove? (h : p.remove? id = some (s, q)) : q.depth = q.lastDepth := by
  obtain ⟨_, rfl⟩ := remove?_eq_some h
  rfl

private theorem writes_induction {P : Proof → Prop} (begun : start goal premises = .ok p)
    (blank : P (blank goal premises)) (write : ∀ r s q, P r → r.Writes s q → P q) : P p := by
  have flat : P p ∧ p.depth = 0 := by
    refine start_induction (P := fun r => P r ∧ r.depth = 0) begun ⟨blank, rfl⟩ ?_
    rintro r formula q _ ⟨holds, flat⟩ pushed
    obtain ⟨s, writes, depth⟩ := writes_of_pushPremise flat pushed
    exact ⟨write r s q holds writes, depth⟩
  exact flat.1

/-- What holds before any premise and is kept with each line that is written down holds of every proof that comes
about by applying rules. -/
theorem Derivable.induct {P : Proof → Prop} (h : Derivable goal premises p)
    (blank : P (blank goal premises)) (write : ∀ r s q, P r → r.Writes s q → P q) : P p := by
  induction h with
  | start begun => exact writes_induction begun blank write
  | extend _ step ih => exact write _ _ _ ih step.writes

theorem Assembled.goal_eq (h : Assembled goal premises p) : p.goal = goal ∧ p.premises = premises := by
  induction h with
  | start begun =>
    have started := started_of_start begun
    exact ⟨started.goal_eq, started.premises_eq⟩
  | push _ _ _ _ pushed ih _ =>
    obtain ⟨goal_eq, premises_eq, _⟩ := push_eq_ok pushed
    exact ⟨goal_eq.trans ih.1, premises_eq.trans ih.2⟩
  | remove _ removed ih =>
    obtain ⟨_, rfl⟩ := remove?_eq_some removed
    exact ih
  | mark _ ih => exact ih
  | reset _ again ih =>
    rw [Proof.reset, ih.1, ih.2] at again
    have started := started_of_start again
    exact ⟨started.goal_eq, started.premises_eq⟩

theorem Assembled.exists_start (h : Assembled goal premises p) :
    ∃ begun, Proof.start goal premises = .ok begun := by
  induction h with
  | start begun => exact ⟨_, begun⟩
  | push _ _ _ _ _ ih _ => exact ih
  | remove _ _ ih => exact ih
  | mark _ ih => exact ih
  | reset _ _ ih => exact ih

private theorem Reachable.goal_eq (h : Reachable goal premises p) : p.goal = goal ∧ p.premises = premises :=
  h.assembled.goal_eq

private theorem Reachable.induct {P : Proof → Prop} (h : Reachable goal premises p)
    (blank : P (blank goal premises)) (write : ∀ r s q, P r → r.Writes s q → P q)
    (remove : ∀ r id s q, P r → r.remove? id = some (s, q) → P q)
    (mark : ∀ r, P r → P r.markComplete) : P p := by
  induction h with
  | start begun => exact writes_induction begun blank write
  | extend _ step ih => exact write _ _ _ ih step.writes
  | remove _ removed ih => exact remove _ _ _ _ ih removed
  | mark _ ih => exact mark _ ih
  | reset before again _ =>
    rw [Proof.reset, before.goal_eq.1, before.goal_eq.2] at again
    exact writes_induction again blank write

/-- Proofs whose parts agree: the steps are numbered upwards with numbers that have been given out, they depend on
earlier numbers only, the depth is that of the last step, and a proof that is marked complete is done. -/
structure Consistent (p : Proof) : Prop where
  numbered : p.Numbered
  backward : ∀ s ∈ p.steps, ∀ id ∈ s.dependencies, id.val < s.id.val
  depth_eq : p.depth = p.lastDepth
  done : p.complete = true → p.isValid = true

theorem consistent_blank (goal : String) (premises : List String) :
    (blank goal premises).Consistent where
  numbered := ⟨List.Pairwise.nil, by simp [blank]⟩
  backward := by simp [blank]
  depth_eq := rfl
  done := by simp [blank]

private theorem last?_of_push (h : p.push s = .ok q) : q.last? = some s := by
  rw [last?, (push_eq_ok h).2.2.1, List.getLast?_concat]

private theorem depth_of_push (h : p.push s = .ok q) : q.depth = q.lastDepth := by
  rw [(push_eq_ok h).2.2.2.1, lastDepth_of_last? (last?_of_push h)]

theorem Consistent.write (consistent : p.Consistent) (h : p.Writes s q) : q.Consistent := by
  obtain ⟨_, _, steps, depth, complete⟩ := push_eq_ok h.pushed
  refine ⟨consistent.numbered.push h.id_eq h.pushed, ?_, depth_of_push h.pushed, by simp [complete]⟩
  intro t member id cited
  rcases (mem_steps_of_push h.pushed).1 member with earlier | rfl
  · exact consistent.backward t earlier id cited
  · obtain ⟨c, inSteps, rfl⟩ := h.cites id cited
    rw [h.id_eq]
    exact consistent.numbered.given c inSteps

private theorem Consistent.remove (consistent : p.Consistent) (h : p.remove? id = some (s, q)) :
    q.Consistent := by
  have fewer := steps_of_remove? h
  have depth := depth_of_remove? h
  obtain ⟨_, rfl⟩ := remove?_eq_some h
  refine ⟨⟨consistent.numbered.increasing.sublist fewer, ?_⟩, ?_, depth, by simp⟩
  · intro t member
    exact consistent.numbered.given t (fewer.subset member)
  · intro t member
    exact consistent.backward t (fewer.subset member)

private theorem Consistent.mark (consistent : p.Consistent) : p.markComplete.Consistent where
  numbered := ⟨consistent.numbered.increasing, consistent.numbered.given⟩
  backward := consistent.backward
  depth_eq := consistent.depth_eq
  done := fun valid => valid

theorem Reachable.consistent (h : Reachable goal premises p) : p.Consistent :=
  h.induct (consistent_blank goal premises) (fun _ _ _ consistent => consistent.write)
    (fun _ _ _ _ consistent => consistent.remove) (fun _ consistent => consistent.mark)

/-- As `Reachable.induct`, with the proofs known to be consistent on the way. -/
theorem Reachable.consistent_induct {P : Proof → Prop} (h : Reachable goal premises p)
    (blank : P (blank goal premises))
    (write : ∀ r s q, r.Consistent → P r → r.Writes s q → P q)
    (remove : ∀ r id s q, P r → r.remove? id = some (s, q) → P q)
    (mark : ∀ r, P r → P r.markComplete) : P p := by
  have both : p.Consistent ∧ P p := by
    refine h.induct (P := fun r => r.Consistent ∧ P r) ⟨consistent_blank goal premises, blank⟩
      ?_ ?_ ?_
    · rintro r s q ⟨consistent, holds⟩ writes
      exact ⟨consistent.write writes, write r s q consistent holds writes⟩
    · rintro r id s q ⟨consistent, holds⟩ removed
      exact ⟨consistent.remove removed, remove r id s q holds removed⟩
    · rintro r ⟨consistent, holds⟩
      exact ⟨consistent.mark, mark r holds⟩
  exact both.2

/-- The proofs that come about from a proof by any changes, as long as it is not begun anew. -/
inductive Continues (p : Proof) : Proof → Prop
  | refl : Continues p p
  | extend {q r : Proof} {s : Step} (before : Continues p q) (step : q.Extends s r) : Continues p r
  | remove {q r : Proof} {id : StepId} {s : Step} (before : Continues p q)
      (removed : q.remove? id = some (s, r)) : Continues p r
  | mark {q : Proof} (before : Continues p q) : Continues p q.markComplete

private theorem Continues.nextId_le (h : p.Continues q) : p.nextId.val ≤ q.nextId.val := by
  induction h with
  | refl => exact Nat.le_refl _
  | extend _ step ih =>
    have next := nextId_of_push step.writes.id_eq step.writes.pushed
    omega
  | remove _ removed ih =>
    obtain ⟨_, rfl⟩ := remove?_eq_some removed
    exact ih
  | mark _ ih => exact ih

/-- Every proof that comes about by any changes is consistent and keeps its goal and its premises, so that beginning
it anew gives the new proof of them; and until then no later step gets the number of a step that it has, removed or
not. -/
theorem consistent_of_reachable (h : Reachable goal premises p) :
    p.goal = goal ∧ p.premises = premises ∧ p.Consistent ∧
      (∃ begun, start goal premises = .ok begun ∧ p.reset = .ok begun) ∧
      ∀ s ∈ p.steps, ∀ q, p.Continues q → ∀ t r, q.Extends t r → s.id.val < t.id.val := by
  obtain ⟨goal_eq, premises_eq⟩ := h.goal_eq
  obtain ⟨begun, started⟩ := h.assembled.exists_start
  refine ⟨goal_eq, premises_eq, h.consistent, ⟨begun, started, ?_⟩, ?_⟩
  · rw [Proof.reset, goal_eq, premises_eq, started]
  · intro s member q continues t r step
    calc
      s.id.val < p.nextId.val := h.consistent.numbered.given s member
      _ ≤ q.nextId.val := continues.nextId_le
      _ = t.id.val := by rw [step.writes.id_eq]

/-- An assumption that is removed and made again gets a new number. -/
theorem consistent_of_assumed_again :
    ∃ p q r s t, Reachable "p" [] p ∧ p.steps = [s] ∧ p.Continues q ∧ q.steps = [] ∧
      q.Extends t r ∧ s.formula = t.formula ∧ p.Consistent ∧ s.id.val < t.id.val := by
  let second : StepId := ⟨2, by decide⟩
  let assumed : Step := ⟨.first, .first, "p", .assumption, [], 1, true, false, none⟩
  let again : Step := ⟨second, .first, "p", .assumption, [], 1, true, false, none⟩
  have reached : Reachable "p" [] ⟨"p", [], [assumed], 1, second, false⟩ :=
    .extend (.start rfl)
      (@Extends.apply _ assumed _ ⟨.assumption, .assumption, 0⟩ [] (some "p") (by decide) (by cbv) rfl)
  have emptied : Continues ⟨"p", [], [assumed], 1, second, false⟩ ⟨"p", [], [], 0, second, false⟩ :=
    @Continues.remove _ _ _ .first assumed .refl rfl
  have extended : Extends ⟨"p", [], [], 0, second, false⟩ again
      ⟨"p", [], [again], 1, ⟨3, by decide⟩, false⟩ :=
    @Extends.apply _ again _ ⟨.assumption, .assumption, 0⟩ [] (some "p") (by decide) (by cbv) rfl
  obtain ⟨_, _, consistent, _, fresh⟩ := consistent_of_reachable reached
  exact ⟨_, _, _, assumed, again, reached, rfl, emptied, rfl, extended, rfl, consistent,
    fresh assumed List.mem_cons_self _ emptied again _ extended⟩

end Proof

end NaturalDeduction

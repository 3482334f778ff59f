import NaturalDeduction.Proofs.Proof.LineOrder

/-!
Line numbers do not run out. A step has a number of its own and each line number goes up by one at most, so that no
segment of a line is above the number of its step. This is a property of the steps that a rule gives, so it does not
matter when they are pushed and on which proof. A proof always has a next step number, and so it has a next line number
as well, wherever the next step stands; only a step with the last number cannot be pushed.
-/

set_option autoImplicit false
set_option relaxedAutoImplicit false

namespace NaturalDeduction

namespace LineNumber

variable {l m : LineNumber} {n : Nat}

private theorem exists_of_mem_increment {ns : List Nat} (h : n ∈ increment ns) :
    ∃ k ∈ ns, k ≤ n ∧ n ≤ k + 1 := by
  fun_induction increment ns with
  | case1 => cases h
  | case2 k =>
    rw [List.mem_singleton.1 h]
    exact ⟨k, List.mem_cons_self, Nat.le_succ k, Nat.le_refl _⟩
  | case3 k ns _ ih =>
    rcases List.mem_cons.1 h with rfl | later
    · exact ⟨n, List.mem_cons_self, Nat.le_refl n, Nat.le_succ n⟩
    · obtain ⟨j, member, bounds⟩ := ih later
      exact ⟨j, List.mem_cons_of_mem _ member, bounds⟩

private theorem exists_ofGrown_increment {ns : List Nat} (nonempty : ns ≠ [])
    (small : ∀ k ∈ ns, 0 < k ∧ k < counterLimit) : ∃ m, ofGrown (increment ns) = .ok m := by
  have valid : increment ns ≠ [] ∧ ∀ n ∈ increment ns, 0 < n ∧ n ≤ counterLimit := by
    constructor
    · rw [← List.length_pos_iff, length_increment]
      exact List.length_pos_iff.2 nonempty
    · intro n member
      obtain ⟨k, inside, least, most⟩ := exists_of_mem_increment member
      have range := small k inside
      omega
  exact ⟨⟨_, valid.1, valid.2⟩, by rw [ofGrown, ofSegments?, dif_pos valid]⟩

private theorem exists_of_mem_nextSibling (h : l.nextSibling = .ok m) (member : n ∈ m.segments) :
    ∃ k ∈ l.segments, n ≤ k + 1 := by
  rw [segments_of_ofGrown h] at member
  obtain ⟨k, inside, _, most⟩ := exists_of_mem_increment member
  exact ⟨k, inside, most⟩

private theorem exists_of_mem_afterSubproof (h : l.afterSubproof = .ok m) (member : n ∈ m.segments) :
    ∃ k ∈ l.segments, n ≤ k + 1 := by
  unfold afterSubproof at h
  split at h
  · rw [segments_of_ofGrown h] at member
    obtain ⟨k, inside, _, most⟩ := exists_of_mem_increment member
    exact ⟨k, List.mem_of_mem_dropLast inside, most⟩
  · exact exists_of_mem_nextSibling h member

private theorem exists_nextSibling (small : ∀ k ∈ l.segments, k < counterLimit) :
    ∃ m, l.nextSibling = .ok m :=
  exists_ofGrown_increment l.nonempty fun k member => ⟨(l.valid k member).1, small k member⟩

private theorem exists_afterSubproof (small : ∀ k ∈ l.segments, k < counterLimit) :
    ∃ m, l.afterSubproof = .ok m := by
  unfold afterSubproof
  split
  · rename_i shape
    refine exists_ofGrown_increment (by simp [shape]) fun k member => ?_
    have inside := List.mem_of_mem_dropLast member
    exact ⟨(l.valid k inside).1, small k inside⟩
  · exact exists_nextSibling small

end LineNumber

namespace Proof

variable {goal : String} {premises : List String} {p q : Proof} {s last : Step} {id : StepId}

private theorem exists_of_mem_lineFor {placement : Placement} {l : LineNumber} {n : Nat}
    (given : p.lineFor placement = .ok l) (member : n ∈ l.segments) :
    n = 1 ∨ ∃ last ∈ p.steps, ∃ k ∈ last.line.segments, n ≤ k + 1 := by
  cases final : p.last? with
  | none =>
    rw [lineFor_of_empty final] at given
    cases given
    exact Or.inl (List.mem_singleton.1 member)
  | some last =>
    have inSteps := List.mem_of_getLast? final
    rw [lineFor_of_last? final] at given
    cases placement with
    | continues =>
      exact Or.inr ⟨last, inSteps, LineNumber.exists_of_mem_nextSibling given member⟩
    | opens =>
      cases given
      rw [LineNumber.segments_firstChild] at member
      rcases List.mem_append.1 member with old | new
      · exact Or.inr ⟨last, inSteps, n, old, Nat.le_succ n⟩
      · exact Or.inl (List.mem_singleton.1 new)
    | closes =>
      exact Or.inr ⟨last, inSteps, LineNumber.exists_of_mem_afterSubproof given member⟩

private theorem push_eq_error_iff {e : Exhausted} :
    p.push s = .error e ↔ s.id.val = counterLimit ∧ e = .stepId := by
  unfold push nextIdAfter
  by_cases last : s.id.val = counterLimit
  · have reaches : p.nextId.val ≤ s.id.val := last ▸ p.nextId.le_limit
    have none : s.id.next = .error .stepId := by
      rw [StepId.next, dif_neg (by omega)]
    rw [if_pos reaches, none]
    constructor
    · intro failed
      exact ⟨last, (Except.error.inj failed).symm⟩
    · rintro ⟨_, rfl⟩
      rfl
  · obtain ⟨next, follows⟩ : ∃ next, s.id.next = .ok next := by
      have below := s.id.le_limit
      exact ⟨_, by rw [StepId.next, dif_pos (by omega)]⟩
    rw [follows]
    constructor
    · intro failed
      split at failed <;> cases failed
    · intro given
      exact absurd given.1 last

private theorem lt_nextId_of_push (h : p.push s = .ok q) :
    s.id.val < q.nextId.val ∧ p.nextId.val ≤ q.nextId.val := by
  have after := nextIdAfter_of_push h
  unfold nextIdAfter at after
  split at after
  · rename_i reaches
    unfold StepId.next at after
    split at after
    · rw [← Except.ok.inj after]
      exact ⟨Nat.lt_succ_self _, Nat.le_succ_of_le reaches⟩
    · cases after
  · rename_i passed
    rw [← Except.ok.inj after]
    exact ⟨Nat.lt_of_not_le passed, Nat.le_refl _⟩

/-- No segment of the line of a step is above the number of the step, and neither is its depth. -/
structure StepBounded (s : Step) : Prop where
  segments : ∀ n ∈ s.line.segments, n ≤ s.id.val
  depth : s.depth ≤ s.id.val

/-- The steps of a proof are bounded by their numbers, and these and the depth are below the next one. -/
structure LinesBounded (p : Proof) : Prop where
  steps : ∀ s ∈ p.steps, StepBounded s
  given : ∀ s ∈ p.steps, s.id.val < p.nextId.val
  depth : p.depth < p.nextId.val

namespace LinesBounded

private theorem blank (goal : String) (premises : List String) : (blank goal premises).LinesBounded :=
  ⟨by simp [Proof.blank], by simp [Proof.blank], Nat.one_pos⟩

private theorem exists_lineFor (bounded : p.LinesBounded) (placement : Placement) :
    ∃ l, p.lineFor placement = .ok l := by
  cases final : p.last? with
  | none => exact ⟨_, lineFor_of_empty final placement⟩
  | some last =>
    have inSteps := List.mem_of_getLast? final
    have small : ∀ k ∈ last.line.segments, k < counterLimit := by
      intro k member
      calc
        k ≤ last.id.val := (bounded.steps last inSteps).segments k member
        _ < p.nextId.val := bounded.given last inSteps
        _ ≤ counterLimit := p.nextId.le_limit
    rw [lineFor_of_last? final]
    cases placement with
    | continues => exact LineNumber.exists_nextSibling small
    | opens => exact ⟨_, rfl⟩
    | closes => exact LineNumber.exists_afterSubproof small

private theorem next (bounded : p.LinesBounded) {placement : Placement} (number : s.id = p.nextId)
    (line : p.lineFor placement = .ok s.line) (depth : s.depth ≤ p.depth + 1) : StepBounded s := by
  have deeper := bounded.depth
  constructor
  · intro n segment
    rw [number]
    rcases exists_of_mem_lineFor line segment with rfl | ⟨last, inSteps, k, inside, most⟩
    · exact Nat.one_le_of_lt deeper
    · have below := (bounded.steps last inSteps).segments k inside
      have given := bounded.given last inSteps
      omega
  · rw [number]
    omega

/-- What a rule gives is bounded, on whichever proof it will be pushed. -/
private theorem of_apply (bounded : p.LinesBounded) {rule : Rule} {selected : List StepId}
    {input : Option String} (given : p.apply rule selected input = .ok (some s)) : StepBounded s := by
  obtain ⟨_, _, _, _, records⟩ := apply_eq_some given
  refine bounded.next records.id_eq (line_of_apply given) ?_
  rw [records.depth_eq]
  cases rule.kind.placement <;> simp only [depthFor] <;> omega

private theorem push (bounded : p.LinesBounded) (step : StepBounded s) (h : p.push s = .ok q) :
    q.LinesBounded := by
  obtain ⟨above, kept⟩ := lt_nextId_of_push h
  refine ⟨fun t member => ?_, fun t member => ?_, ?_⟩
  · rcases (mem_steps_of_push h).1 member with earlier | rfl
    · exact bounded.steps t earlier
    · exact step
  · rcases (mem_steps_of_push h).1 member with earlier | rfl
    · exact Nat.lt_of_lt_of_le (bounded.given t earlier) kept
    · exact above
  · rw [(push_eq_ok h).2.2.2.1]
    exact Nat.lt_of_le_of_lt step.depth above

private theorem remove (bounded : p.LinesBounded) (h : p.remove? id = some (s, q)) : q.LinesBounded := by
  have fewer := steps_of_remove? h
  have depth := depth_of_remove? h
  have next : q.nextId = p.nextId := by
    obtain ⟨_, rfl⟩ := remove?_eq_some h
    rfl
  refine ⟨fun t member => bounded.steps t (fewer.subset member), fun t member => ?_, ?_⟩
  · rw [next]
    exact bounded.given t (fewer.subset member)
  · rw [depth, next]
    cases final : q.last? with
    | none =>
      rw [lastDepth, final]
      exact Nat.zero_lt_of_lt bounded.depth
    | some last =>
      have inSteps := fewer.subset (List.mem_of_getLast? final)
      rw [lastDepth_of_last? final]
      exact Nat.lt_of_le_of_lt (bounded.steps last inSteps).depth (bounded.given last inSteps)

private theorem exists_premiseStep (bounded : p.LinesBounded) (formula : String) :
    ∃ s, p.premiseStep formula = .ok s ∧ StepBounded s := by
  obtain ⟨line, next⟩ := bounded.exists_lineFor .continues
  obtain ⟨s, written⟩ : ∃ s, p.premiseStep formula = .ok s := ⟨_, congrArg (Except.map _) next⟩
  obtain ⟨number, _, placed, flat, _⟩ := premiseStep_eq_ok written
  have line_eq : p.lineFor .continues = .ok s.line := placed
  exact ⟨s, written, bounded.next number line_eq (by omega)⟩

private theorem pushPremise (bounded : p.LinesBounded) {formula : String}
    (h : p.pushPremise formula = .ok q) : q.LinesBounded := by
  obtain ⟨s, written, step⟩ := bounded.exists_premiseStep formula
  rw [Proof.pushPremise, written] at h
  exact bounded.push step h

private theorem of_premises {begun : List String}
    (h : begun.foldlM Proof.pushPremise (Proof.blank goal premises) = .ok p) : p.LinesBounded :=
  foldlM_induction h (blank goal premises) fun _ _ _ _ bounded => bounded.pushPremise

end LinesBounded

private theorem Assembled.linesBounded (h : Assembled goal premises p) : p.LinesBounded := by
  induction h with
  | start begun => exact .of_premises begun
  -- the step is bounded by its own number, so it does not matter on which proof the rule was applied
  | push _ _ _ given pushed ih source => exact ih.push (source.of_apply given) pushed
  | remove _ removed ih => exact ih.remove removed
  | mark _ ih => exact ⟨ih.steps, ih.given, ih.depth⟩
  | reset _ again _ => exact .of_premises again

private theorem LinesBounded.exists_given (bounded : p.LinesBounded) (rule : Rule) (selected : List StepId)
    (input : Option String) : ∃ given, p.apply rule selected input = .ok given := by
  unfold apply
  split
  · exact ⟨_, rfl⟩
  · rename_i d _
    obtain ⟨l, line⟩ := bounded.exists_lineFor d.placement
    exact ⟨_, by rw [stepOf, line]; rfl⟩

theorem Reachable.exists_apply (run : Reachable goal premises p) {rule : Rule}
    {selected : List StepId} {input : Option String} {d : Derivation}
    (derived : p.deriveFrom rule selected input = some d) :
    ∃ s, p.apply rule selected input = .ok (some s) ∧ s.formula = d.formula := by
  obtain ⟨given, applied⟩ := run.assembled.linesBounded.exists_given rule selected input
  rw [applied]
  unfold apply at applied
  rw [derived] at applied
  obtain ⟨s, written, rfl⟩ := Except.exists_of_map_eq_ok applied
  obtain ⟨line, _, rfl⟩ := Except.exists_of_map_eq_ok written
  exact ⟨_, rfl, rfl⟩

/-- The step `s` is that of the next premise, while a proof is begun and has come to `p`. -/
def PremiseDue (goal : String) (premises : List String) (p : Proof) (s : Step) : Prop :=
  ∃ begun formula rest, premises = begun ++ formula :: rest ∧
    begun.foldlM pushPremise (blank goal premises) = .ok p ∧ p.premiseStep formula = .ok s

private theorem nextId_of_premises {begun : List String} (h : begun.foldlM pushPremise p = .ok q) :
    q.nextId.val = p.nextId.val + begun.length := by
  induction begun generalizing p with
  | nil =>
    cases h
    rfl
  | cons formula begun ih =>
    rw [List.foldlM_cons] at h
    obtain ⟨r, first, later⟩ := Except.exists_of_bind_eq_ok h
    obtain ⟨s, written, pushed⟩ := Except.exists_of_bind_eq_ok first
    rw [ih later, nextId_of_push (premiseStep_eq_ok written).1 pushed, List.length_cons]
    omega

private theorem PremiseDue.id_le (h : PremiseDue goal premises p s) : s.id.val ≤ premises.length := by
  obtain ⟨begun, formula, rest, rfl, gone, written⟩ := h
  have next : p.nextId.val = 1 + begun.length := nextId_of_premises gone
  rw [(premiseStep_eq_ok written).1, next, List.length_append, List.length_cons]
  omega

private theorem exists_of_start_eq_error {e : Exhausted} (h : start goal premises = .error e) :
    ∃ p s, PremiseDue goal premises p s ∧ p.push s = .error e := by
  obtain ⟨begun, formula, rest, p, split, gone, stuck⟩ := exists_of_foldlM_eq_error h
  obtain ⟨s, written, _⟩ := (LinesBounded.of_premises gone).exists_premiseStep formula
  rw [pushPremise, written] at stuck
  exact ⟨p, s, ⟨begun, formula, rest, split, gone, written⟩, stuck⟩

private theorem exists_start_iff : (∃ p, start goal premises = .ok p) ↔ premises.length < counterLimit := by
  constructor
  · rintro ⟨p, begun⟩
    have next : p.nextId.val = 1 + premises.length := nextId_of_premises begun
    have limit := p.nextId.le_limit
    omega
  · intro few
    cases begun : start goal premises with
    | ok p => exact ⟨p, rfl⟩
    | error e =>
      obtain ⟨p, s, due, stuck⟩ := exists_of_start_eq_error begun
      have last := (push_eq_error_iff.1 stuck).1
      have most := due.id_le
      omega

/-- In every proof that is put together by any changes, the segments of a line are positive and not above the number of
its step. So there is a line for the next step wherever it stands, and its depth is within the limit as well; rules can
be applied and the proof can be begun anew. What fails is only to push a step with the last number; for a new proof, that
is the step of a premise, and there have to be as many premises as numbers. -/
theorem segments_le_id_of_assembled (goal : String) (premises : List String) :
    ((∃ p, start goal premises = .ok p) ↔ premises.length < counterLimit) ∧
    (∀ e, start goal premises = .error e →
      e = .stepId ∧ ∃ p s, PremiseDue goal premises p s ∧ s.id.val = counterLimit ∧ p.push s = .error e) ∧
    ∀ p, Assembled goal premises p →
      (∀ s ∈ p.steps, ∀ n ∈ s.line.segments, 1 ≤ n ∧ n ≤ s.id.val) ∧
      (∀ placement, (∃ l, p.lineFor placement = .ok l) ∧ p.depthFor placement ≤ counterLimit) ∧
      (∀ rule selected input, ∃ given, p.apply rule selected input = .ok given) ∧
      (∃ begun, p.reset = .ok begun) ∧
      ∀ s e, p.push s = .error e ↔ s.id.val = counterLimit ∧ e = .stepId := by
  refine ⟨exists_start_iff, ?_, ?_⟩
  · intro e failed
    obtain ⟨p, s, due, stuck⟩ := exists_of_start_eq_error failed
    obtain ⟨last, cause⟩ := push_eq_error_iff.1 stuck
    exact ⟨cause, p, s, due, last, stuck⟩
  · intro p assembled
    have bounded := assembled.linesBounded
    obtain ⟨goal_eq, premises_eq⟩ := assembled.goal_eq
    refine ⟨fun s member n segment => ?_, fun placement => ⟨bounded.exists_lineFor placement, ?_⟩,
      bounded.exists_given, ?_, fun s e => push_eq_error_iff⟩
    · exact ⟨(s.line.valid n segment).1, (bounded.steps s member).segments n segment⟩
    · have next := bounded.depth
      have limit := p.nextId.le_limit
      cases placement <;> simp only [depthFor] <;> omega
    · rw [reset, goal_eq, premises_eq]
      exact assembled.exists_start

/-- Two assumptions are made of one and the same proof and pushed one after the other, so that they have the same number
and the same line; and a proof with as many premises as there are numbers cannot be begun. -/
theorem segments_le_id_of_late_push :
    (∃ p, Assembled "p" ["p"] p ∧
      p.steps.map (fun s => (s.id.val, s.line.segments)) = [(1, [1]), (2, [1, 1]), (2, [1, 1])] ∧
      (∀ s ∈ p.steps, ∀ n ∈ s.line.segments, 1 ≤ n ∧ n ≤ s.id.val) ∧ ∃ l, p.lineFor .closes = .ok l) ∧
    ∃ e, start "p" (List.replicate counterLimit "p") = .error e ∧ e = .stepId := by
  constructor
  · let assumed (formula : String) : Step :=
      ⟨.short 2, .firstChild .first, formula, .assumption, [], 1, true, false, none⟩
    have begun : Assembled "p" ["p"] ⟨"p", ["p"], nestedAssumptions.steps.take 1, 0, .short 2, false⟩ :=
      .start rfl
    have first : Assembled "p" ["p"]
        ⟨"p", ["p"], nestedAssumptions.steps.take 1 ++ [assumed "q"], 1, .short 3, false⟩ :=
      @Assembled.push _ _ _ _ _ _ _ ⟨.assumption, .assumption, 0⟩ [] (some "q") (assumed "q") begun begun
        (by decide) (by cbv) rfl
    have second : Assembled "p" ["p"]
        ⟨"p", ["p"], nestedAssumptions.steps.take 1 ++ [assumed "q"] ++ [assumed "r"], 1, .short 3, false⟩ :=
      @Assembled.push _ _ _ _ _ _ _ ⟨.assumption, .assumption, 0⟩ [] (some "r") (assumed "r") first begun
        (by decide) (by cbv) rfl
    obtain ⟨bounds, lines, _⟩ := (segments_le_id_of_assembled "p" ["p"]).2.2 _ second
    exact ⟨_, second, rfl, bounds, (lines .closes).1⟩
  · obtain ⟨enough, cause, _⟩ := segments_le_id_of_assembled "p" (List.replicate counterLimit "p")
    cases begun : start "p" (List.replicate counterLimit "p") with
    | ok p =>
      have few := enough.1 ⟨p, begun⟩
      rw [List.length_replicate] at few
      exact absurd few (Nat.lt_irrefl _)
    | error e => exact ⟨e, rfl, (cause e begun).1⟩

end Proof

end NaturalDeduction

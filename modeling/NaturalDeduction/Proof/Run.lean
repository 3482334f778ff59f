import NaturalDeduction.Proof.Application

/-!
Runs: which proofs come about from a start. `Derivable` allows rules to be applied only; `Reachable` also allows
steps to be removed, the proof to be marked and the proof to be begun anew; and in an `Assembled` proof the steps that
rules gave may have been pushed at any time.
-/

set_option autoImplicit false
set_option relaxedAutoImplicit false

namespace NaturalDeduction.Proof

/-- A rule of the table gives a step on a proof, and the step is pushed. -/
inductive Extends (p : Proof) (s : Step) (q : Proof) : Prop
  | apply {rule : Rule} {selected : List StepId} {input : Option String}
      (listed : rule ∈ Rule.table) (given : p.apply rule selected input = .ok (some s))
      (pushed : p.push s = .ok q)

/-- The proofs that come about by applying rules. -/
inductive Derivable (goal : String) (premises : List String) : Proof → Prop
  | start {p : Proof} (begun : start goal premises = .ok p) : Derivable goal premises p
  | extend {p q : Proof} {s : Step} (before : Derivable goal premises p) (step : p.Extends s q) :
      Derivable goal premises q

/-- The proofs that come about by any changes. -/
inductive Reachable (goal : String) (premises : List String) : Proof → Prop
  | start {p : Proof} (begun : start goal premises = .ok p) : Reachable goal premises p
  | extend {p q : Proof} {s : Step} (before : Reachable goal premises p) (step : p.Extends s q) :
      Reachable goal premises q
  | remove {p q : Proof} {id : StepId} {s : Step} (before : Reachable goal premises p)
      (removed : p.remove? id = some (s, q)) : Reachable goal premises q
  | mark {p : Proof} (before : Reachable goal premises p) :
      Reachable goal premises p.markComplete
  | reset {p q : Proof} (before : Reachable goal premises p) (again : p.reset = .ok q) :
      Reachable goal premises q

theorem Derivable.reachable {goal : String} {premises : List String} {p : Proof}
    (h : Derivable goal premises p) : Reachable goal premises p := by
  induction h with
  | start begun => exact .start begun
  | extend _ step ih => exact .extend ih step

/-- The proofs that are put together by any changes, where a step that a rule gave may also be pushed when the proof has
changed since then, and on another proof than the one that the rule was applied to. -/
inductive Assembled : String → List String → Proof → Prop
  | start {goal : String} {premises : List String} {p : Proof}
      (begun : start goal premises = .ok p) : Assembled goal premises p
  | push {goal goal' : String} {premises premises' : List String} {p q r : Proof} {rule : Rule}
      {selected : List StepId} {input : Option String} {s : Step}
      (before : Assembled goal premises p) (source : Assembled goal' premises' q)
      (listed : rule ∈ Rule.table) (given : q.apply rule selected input = .ok (some s))
      (pushed : p.push s = .ok r) : Assembled goal premises r
  | remove {goal : String} {premises : List String} {p q : Proof} {id : StepId} {s : Step}
      (before : Assembled goal premises p) (removed : p.remove? id = some (s, q)) :
      Assembled goal premises q
  | mark {goal : String} {premises : List String} {p : Proof}
      (before : Assembled goal premises p) : Assembled goal premises p.markComplete
  | reset {goal : String} {premises : List String} {p q : Proof}
      (before : Assembled goal premises p) (again : p.reset = .ok q) : Assembled goal premises q

theorem Reachable.assembled {goal : String} {premises : List String} {p : Proof}
    (h : Reachable goal premises p) : Assembled goal premises p := by
  induction h with
  | start begun => exact .start begun
  | extend _ step ih =>
    obtain ⟨listed, given, pushed⟩ := step
    exact .push ih ih listed given pushed
  | remove _ removed ih => exact .remove ih removed
  | mark _ ih => exact .mark ih
  | reset _ again ih => exact .reset ih again

end NaturalDeduction.Proof

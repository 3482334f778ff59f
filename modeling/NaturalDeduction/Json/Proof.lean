import NaturalDeduction.Json.Basic
import NaturalDeduction.Proof.Basic

set_option autoImplicit false
set_option relaxedAutoImplicit false

namespace NaturalDeduction

namespace StepId

def toJson (i : StepId) : Json :=
  .nat i.val

def ofJson? (j : Json) : Option StepId :=
  j.nat?.bind fun n => if h : n ≤ counterLimit then some ⟨n, h⟩ else none

end StepId

namespace LineNumber

def toJson (l : LineNumber) : Json :=
  .str l.text

def ofJson? (j : Json) : Option LineNumber :=
  j.str?.bind fun s => (parse s).toOption

end LineNumber

namespace RuleKind

def toJson (k : RuleKind) : Json :=
  .str k.key

def ofJson? (j : Json) : Option RuleKind :=
  j.word?.bind ofKey?

end RuleKind

namespace OrCases

def toJson (c : OrCases) : Json :=
  .obj [("left", .str c.left), ("right", .str c.right)]

def ofJson? (j : Json) : Option OrCases := do
  let j ← j.record? ["left", "right"]
  return {
    left := ← j.read? "left" Json.str?
    right := ← j.read? "right" Json.str? }

/-- The cases of a step, whose field may be missing or null. -/
def ofField? : Option Json → Option (Option OrCases)
  | none => some none
  | some .null => some none
  | some j => (ofJson? j).map some

end OrCases

namespace Step

def toJson (s : Step) : Json :=
  .obj ([("id", s.id.toJson),
    ("line_number", s.line.toJson),
    ("formula", .str s.formula),
    ("rule", s.rule.toJson),
    ("dependencies", .arr (s.dependencies.map StepId.toJson)),
    ("depth", .nat s.depth),
    ("is_subproof_start", .bool s.opensSubproof),
    ("is_subproof_end", .bool s.closesSubproof)] ++
    (s.cases.map fun c => ("cases", c.toJson)).toList)

def ofJson? (j : Json) : Option Step := do
  let j ← j.record? ["id", "line_number", "formula", "rule", "dependencies", "depth",
    "is_subproof_start", "is_subproof_end", "cases"]
  return {
    id := ← j.read? "id" StepId.ofJson?
    line := ← j.read? "line_number" LineNumber.ofJson?
    formula := ← j.read? "formula" Json.str?
    rule := ← j.read? "rule" RuleKind.ofJson?
    dependencies := ← j.read? "dependencies" (Json.list? StepId.ofJson?)
    depth := ← j.read? "depth" Json.size?
    opensSubproof := ← j.read? "is_subproof_start" Json.bool?
    closesSubproof := ← j.read? "is_subproof_end" Json.bool?
    cases := ← OrCases.ofField? (j.field? "cases") }

end Step

namespace Proof

def toJson (p : Proof) : Json :=
  .obj [("goal", .str p.goal),
    ("premises", .arr (p.premises.map .str)),
    ("steps", .arr (p.steps.map Step.toJson)),
    ("current_depth", .nat p.depth),
    ("next_id", p.nextId.toJson),
    ("is_complete", .bool p.complete)]

def ofJson? (j : Json) : Option Proof := do
  let j ← j.record? ["goal", "premises", "steps", "current_depth", "next_id", "is_complete"]
  return {
    goal := ← j.read? "goal" Json.str?
    premises := ← j.read? "premises" (Json.list? Json.str?)
    steps := ← j.read? "steps" (Json.list? Step.ofJson?)
    depth := ← j.read? "current_depth" Json.size?
    nextId := ← j.read? "next_id" StepId.ofJson?
    complete := ← j.read? "is_complete" Json.bool? }

end Proof

end NaturalDeduction

import NaturalDeduction.Json.Formula
import NaturalDeduction.Json.Proof
import NaturalDeduction.Proofs.Json.Text

set_option autoImplicit false
set_option relaxedAutoImplicit false

namespace NaturalDeduction

namespace Json

private theorem list?_map {α : Type} {encode : α → Json} {decode : Json → Option α} {xs : List α}
    (back : ∀ x ∈ xs, decode (encode x) = some x) : list? decode (.arr (xs.map encode)) = some xs := by
  rw [list?, arr?, Option.bind_some, mapM_eq_some, List.forall₂_map_left_iff, List.forall₂_same]
  exact back

private theorem exists_of_list? {α : Type} {decode : Json → Option α} {j : Json} {xs : List α}
    (read : list? decode j = some xs) : ∀ x ∈ xs, ∃ item, decode item = some x := by
  intro x member
  obtain ⟨items, _, found⟩ := Option.bind_eq_some_iff.1 read
  obtain ⟨item, _, eq⟩ := exists_of_mapM found x member
  exact ⟨item, eq⟩

private theorem size?_nat {n : Nat} (within : n ≤ sizeLimit) : size? (nat n) = some n := by
  simp [size?, nat, nat?, within]

private theorem le_of_size? {j : Json} {n : Nat} (read : size? j = some n) : n ≤ sizeLimit := by
  simpa using (Option.filter_eq_some_iff.1 read).2

private theorem field?_cons (name other : String) (j : Json) (fields : List (String × Json)) :
    field? name (obj ((other, j) :: fields)) =
      if name = other then some j else field? name (obj fields) := by
  rw [field?, List.lookup]
  by_cases same : name = other
  · simp [same]
  · rw [if_neg same, beq_false_of_ne same]
    rfl

private theorem exists_of_read? {α : Type} {j : Json} {name : String} {decode : Json → Option α} {x : α}
    (read : j.read? name decode = some x) : ∃ value, decode value = some x := by
  obtain ⟨value, _, eq⟩ := Option.bind_eq_some_iff.1 read
  exact ⟨value, eq⟩

private theorem Readable.mono {n m : Nat} {j : Json} (readable : Readable n j) (le : n ≤ m) :
    Readable m j := by
  induction readable generalizing m with
  | null => exact .null
  | bool b => exact .bool b
  | int i => exact .int i
  | str s => exact .str s
  | arr _ ih =>
    obtain ⟨k, rfl⟩ := Nat.exists_eq_succ_of_ne_zero (Nat.ne_zero_of_lt le)
    exact .arr fun j member => ih j member (Nat.le_of_succ_le_succ le)
  | obj once _ ih =>
    obtain ⟨k, rfl⟩ := Nat.exists_eq_succ_of_ne_zero (Nat.ne_zero_of_lt le)
    exact .obj once fun f member => ih f member (Nat.le_of_succ_le_succ le)

private theorem Readable.field {n : Nat} {name : String} {j : Json} (readable : Readable n j) :
    Readable (n + 1) (Json.obj [(name, j)]) :=
  .obj (List.nodup_singleton name) (by simpa using readable)

private theorem Readable.list {n : Nat} {α : Type} {encode : α → Json} {xs : List α}
    (each : ∀ x ∈ xs, Readable n (encode x)) : Readable (n + 1) (Json.arr (xs.map encode)) :=
  .arr (List.forall_mem_map.2 each)

end Json

namespace Formula

private theorem ofJson?_toJson (f : Formula) : ofJson? f.toJson = some f := by
  induction f with
  | var x => simp [toJson, ofJson?]
  | const b => cases b <;> simp [toJson, ofJson?]
  | not f ih => simp [toJson, ofJson?, ih]
  | binary op f g left right =>
    cases op <;>
      simp [toJson, ofJson?, left, right, Connective.jsonName, Connective.ofJsonName?]

private theorem readable_toJson (f : Formula) : Json.Readable (2 * f.height + 1) f.toJson := by
  induction f with
  | var x => exact (Json.Readable.str x).field
  | const b => cases b <;> exact .str _
  | not f ih =>
    rw [toJson, height]
    exact ih.field.mono (by omega)
  | binary op f g left right =>
    rw [toJson, height]
    have both : ∀ j ∈ [f.toJson, g.toJson], Json.Readable (2 * max f.height g.height + 1) j := by
      intro j member
      rcases List.mem_pair.1 member with rfl | rfl
      · exact left.mono (by omega)
      · exact right.mono (by omega)
    exact (Json.Readable.arr both).field

end Formula

private theorem StepId.ofJson?_toJson (i : StepId) : ofJson? i.toJson = some i := by
  obtain ⟨n, within⟩ := i
  simp [toJson, ofJson?, Json.nat, Json.nat?, within]

private theorem LineNumber.ofJson?_toJson (l : LineNumber) : ofJson? l.toJson = some l := by
  rw [toJson, ofJson?, Json.str?, Option.bind_some, parse_text]
  rfl

private theorem RuleKind.ofJson?_toJson (k : RuleKind) : ofJson? k.toJson = some k := by
  cases k <;> decide

namespace OrCases

private theorem ofJson?_toJson (c : OrCases) : ofJson? c.toJson = some c := by
  simp [toJson, ofJson?, Json.read?, Json.field?_cons, Json.str?]

private theorem ofField?_toList (cases : Option OrCases) :
    ofField? (Json.field? "cases" (.obj (cases.map fun c => ("cases", c.toJson)).toList)) =
      some cases := by
  cases cases with
  | none => rfl
  | some c =>
    have present : ofField? (some c.toJson) = (ofJson? c.toJson).map some := rfl
    rw [Option.map_some, Option.toList_some, Json.field?_cons, if_pos rfl, present, ofJson?_toJson]
    rfl

private theorem readable_toJson (c : OrCases) : Json.Readable 1 c.toJson := by
  refine .obj (by simp) ?_
  simp [Json.Readable.str]

end OrCases

namespace Step

private theorem ofJson?_toJson (s : Step) (within : s.depth ≤ Json.sizeLimit) :
    ofJson? s.toJson = some s := by
  have dependencies := Json.list?_map fun i (_ : i ∈ s.dependencies) => StepId.ofJson?_toJson i
  simp only [ofJson?, toJson, List.cons_append, List.nil_append, Json.record?_obj, Json.read?,
    Json.field?_cons, String.reduceEq, if_true, if_false, StepId.ofJson?_toJson,
    LineNumber.ofJson?_toJson, RuleKind.ofJson?_toJson, dependencies, Json.size?_nat within,
    Json.str?, Json.bool?, OrCases.ofField?_toList, Option.bind_some, Option.bind_eq_bind,
    Option.pure_def]

private theorem depth_le_of_ofJson? {j : Json} {s : Step} (read : ofJson? j = some s) :
    s.depth ≤ Json.sizeLimit := by
  simp only [ofJson?, Option.bind_eq_bind, Option.bind_eq_some_iff, Option.pure_def,
    Option.some.injEq] at read
  obtain ⟨_, _, _, _, _, _, _, _, _, _, _, _, _, depth, _, _, _, _, _, _, rfl⟩ := read
  obtain ⟨_, size⟩ := Json.exists_of_read? depth
  exact Json.le_of_size? size

private theorem readable_toJson (s : Step) : Json.Readable 2 s.toJson := by
  refine .obj ?_ ?_
  · cases s.cases <;> simp
  · have numbers : Json.Readable 1 (.arr (s.dependencies.map StepId.toJson)) :=
      .list fun _ _ => .int _
    have both : ∀ f ∈ (s.cases.map fun c => ("cases", c.toJson)).toList, Json.Readable 1 f.2 := by
      intro f member
      obtain ⟨c, _, rfl⟩ := Option.map_eq_some_iff.1 (Option.mem_toList.1 member)
      exact c.readable_toJson
    simp only [List.forall_mem_append, List.forall_mem_cons]
    exact ⟨⟨.int _, .str _, .str _, .str _, numbers, .int _, .bool _, .bool _,
      List.forall_mem_nil _⟩, both⟩

end Step

namespace Proof

/-- The depths of a proof and of its steps are sizes that are recorded. -/
structure Recordable (p : Proof) : Prop where
  depth : p.depth ≤ Json.sizeLimit
  steps : ∀ s ∈ p.steps, s.depth ≤ Json.sizeLimit

private theorem Recordable.ofJson?_toJson {p : Proof} (recordable : p.Recordable) :
    ofJson? p.toJson = some p := by
  have premises := Json.list?_map fun t (_ : t ∈ p.premises) =>
    (rfl : Json.str? (.str t) = some t)
  have steps := Json.list?_map fun s (member : s ∈ p.steps) =>
    s.ofJson?_toJson (recordable.steps s member)
  simp only [ofJson?, toJson, Json.record?_obj, Json.read?, Json.field?_cons, String.reduceEq, if_true,
    if_false, premises, steps, Json.size?_nat recordable.depth, StepId.ofJson?_toJson, Json.str?,
    Json.bool?, Option.bind_some, Option.bind_eq_bind, Option.pure_def]

private theorem recordable_of_ofJson? {j : Json} {p : Proof} (read : ofJson? j = some p) : p.Recordable := by
  simp only [ofJson?, Option.bind_eq_bind, Option.bind_eq_some_iff, Option.pure_def,
    Option.some.injEq] at read
  obtain ⟨_, _, _, _, _, _, _, steps, _, depth, _, _, _, _, rfl⟩ := read
  obtain ⟨_, size⟩ := Json.exists_of_read? depth
  obtain ⟨_, list⟩ := Json.exists_of_read? steps
  refine ⟨Json.le_of_size? size, fun s member => ?_⟩
  obtain ⟨_, item⟩ := Json.exists_of_list? list s member
  exact Step.depth_le_of_ofJson? item

private theorem readable_toJson (p : Proof) : Json.Readable 4 p.toJson := by
  have premises : Json.Readable 3 (.arr (p.premises.map .str)) := .list fun t _ => .str t
  have steps : Json.Readable 3 (.arr (p.steps.map Step.toJson)) :=
    .list fun s _ => s.readable_toJson
  refine .obj (by simp) ?_
  simp only [List.forall_mem_cons]
  exact ⟨.str _, premises, steps, .int _, .int _, .bool _, List.forall_mem_nil _⟩

private theorem parse_text_toJson (p : Proof) : Json.parse p.toJson.text = some p.toJson :=
  Json.parse_text (p.readable_toJson.mono (by decide))

end Proof

/-- A formula is restored from its JSON form, and from the text of this form as long as that text nests no
deeper than it may. A proof whose depths fit is restored from both. And whatever JSON value is read as a proof,
the proof is written as a form that is read as the same proof and comes out the same again. -/
theorem restored_from_json :
    (∀ f : Formula, Formula.ofJson? f.toJson = some f ∧
      (2 * f.height < Json.nestingLimit →
        (Json.parse f.toJson.text).bind Formula.ofJson? = some f)) ∧
    (∀ p : Proof, p.Recordable →
      Proof.ofJson? p.toJson = some p ∧
        (Json.parse p.toJson.text).bind Proof.ofJson? = some p) ∧
    ∀ (j : Json) (p : Proof), Proof.ofJson? j = some p →
      Proof.ofJson? p.toJson = some p ∧
        (Proof.ofJson? p.toJson).map Proof.toJson = some p.toJson ∧
        (Json.parse p.toJson.text).bind Proof.ofJson? = some p := by
  have restored (p : Proof) (recordable : p.Recordable) :
      Proof.ofJson? p.toJson = some p ∧
        (Json.parse p.toJson.text).bind Proof.ofJson? = some p := by
    refine ⟨recordable.ofJson?_toJson, ?_⟩
    rw [p.parse_text_toJson, Option.bind_some, recordable.ofJson?_toJson]
  refine ⟨fun f => ⟨f.ofJson?_toJson, fun shallow => ?_⟩, restored, fun j p read => ?_⟩
  · rw [Json.parse_text (f.readable_toJson.mono shallow), Option.bind_some, f.ofJson?_toJson]
  · obtain ⟨back, text⟩ := restored p (Proof.recordable_of_ofJson? read)
    exact ⟨back, by rw [back, Option.map_some], text⟩

/-- A proof written with a field of another name, a padded line number and null where a step has no cases. -/
def looseJson : Json :=
  .obj [("goal", .str "p"), ("premises", .arr []), ("note", .bool true),
    ("steps", .arr [.obj [("id", .int 1), ("line_number", .str "+01.002"), ("formula", .str "p"),
      ("rule", .obj [("assume", .null)]), ("dependencies", .arr []), ("depth", .int 1),
      ("is_subproof_start", .bool true), ("is_subproof_end", .bool false), ("cases", .null)]]),
    ("current_depth", .int 1), ("next_id", .int 2), ("is_complete", .bool false)]

def looseProof : Proof where
  goal := "p"
  premises := []
  steps := [{
    id := .first
    line := ⟨[1, 2], by decide, by decide⟩
    formula := "p"
    rule := .assumption
    dependencies := []
    depth := 1
    opensSubproof := true
    closesSubproof := false
    cases := none }]
  depth := 1
  nextId := ⟨1 + 1, by decide⟩
  complete := false

theorem restored_from_json_of_looseJson :
    (Json.parse (Formula.not (.const true)).toJson.text).bind Formula.ofJson? =
        some (.not (.const true)) ∧
      (Json.parse looseProof.toJson.text).bind Proof.ofJson? = some looseProof ∧
      Proof.ofJson? looseJson = some looseProof ∧
      (Proof.ofJson? looseProof.toJson).map Proof.toJson = some looseProof.toJson := by
  obtain ⟨formulas, proofs, again⟩ := restored_from_json
  have read : Proof.ofJson? looseJson = some looseProof := by cbv
  have recordable : looseProof.Recordable := ⟨by decide, by decide⟩
  exact ⟨(formulas _).2 (by decide), (proofs _ recordable).2, read, (again _ _ read).2.1⟩

end NaturalDeduction

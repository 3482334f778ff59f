import NaturalDeduction.Proofs.TruthTable.Rows

set_option autoImplicit false
set_option relaxedAutoImplicit false

namespace NaturalDeduction

namespace Formula

private theorem length_distinctNames (xs : List String) : (distinctNames xs).length = xs.toFinset.card := by
  have nodup : (distinctNames xs).Nodup := by
    refine (pairwise_distinctNames xs).imp ?_
    rintro x _ less rfl
    exact String.lt_irrefl x less
  have names : (distinctNames xs).toFinset = xs.toFinset := by
    ext x
    simp
  rw [← List.toFinset_card_of_nodup nodup, names]

private theorem pairwise_vars (f : Formula) : f.vars.Pairwise (· < ·) :=
  pairwise_distinctNames f.names

private theorem length_vars (f : Formula) : f.vars.length = f.names.toFinset.card :=
  length_distinctNames f.names

private theorem eval_eq_of_vars (f : Formula) (v w : Valuation)
    (agree : ∀ x ∈ f.vars, (v x).getD false = (w x).getD false) : f.eval v = f.eval w :=
  f.eval_congr fun x member => agree x (mem_distinctNames.2 member)

end Formula

section Columns

variable {columns : List String}

def Valuation.valuesOf (v : Valuation) (columns : List String) : List Bool :=
  columns.map fun x => (v x).getD false

private theorem Valuation.ofFirst_zip_valuesOf (increase : columns.Pairwise (· < ·)) (v : Valuation)
    {x : String} (member : x ∈ columns) :
    ofFirst (columns.zip (v.valuesOf columns)) x = some ((v x).getD false) := by
  have long : (v.valuesOf columns).length = columns.length := List.length_map _
  have names : (columns.zip (v.valuesOf columns)).map Prod.fst = columns :=
    List.map_fst_zip (Nat.le_of_eq long.symm)
  rw [ofFirst_eq_some_iff (by rwa [names])]
  obtain ⟨i, here⟩ := List.mem_iff_getElem?.1 member
  refine List.mem_iff_getElem?.2 ⟨i, List.getElem?_zip_eq_some.2 ⟨here, ?_⟩⟩
  rw [valuesOf, List.getElem?_map, here]
  rfl

private theorem all_rows_iff (increase : columns.Pairwise (· < ·)) {holds : Valuation → Bool}
    (localized : ∀ v w : Valuation, (∀ x ∈ columns, (v x).getD false = (w x).getD false) →
      holds v = holds w) :
    (valueLists columns.length).all (fun values => holds (.ofFirst (columns.zip values))) = true ↔
      ∀ v, holds v = true := by
  rw [List.all_eq_true]
  constructor
  · intro rows v
    have row := rows (v.valuesOf columns) (mem_valueLists.2 (List.length_map _))
    rw [← row]
    refine localized v _ fun x member => ?_
    rw [Valuation.ofFirst_zip_valuesOf increase v member]
    rfl
  · intro always values _
    exact always _

end Columns

namespace TruthTable

def ofValueLists (f : Formula) : TruthTable :=
  ⟨f.vars, (valueLists f.vars.length).map fun values =>
    ⟨values, f.eval (.ofFirst (f.vars.zip values))⟩⟩

private theorem ofFormula_eq (f : Formula) :
    ofFormula f =
      if f.vars.length ≤ columnLimit then .ok (ofValueLists f) else .error ⟨f.vars.length⟩ := by
  have rows : (List.range (2 ^ f.vars.length)).map (rowAt f f.vars) = (ofValueLists f).rows := by
    rw [ofValueLists, ← map_rowValues_range, List.map_map]
    refine List.map_congr_left fun index _ => ?_
    have long : (rowValues index f.vars.length).length = f.vars.length := by simp [rowValues]
    simp only [rowAt, Function.comp_apply,
      Valuation.ofRow_eq_ofFirst f.pairwise_vars long]
  unfold ofFormula rowCount
  rw [Nat.one_shiftLeft]
  split
  · simp only [Except.map, rows]
    rfl
  · rfl

/-- What a truth table says about a formula. -/
structure Tabulates (t : TruthTable) (f : Formula) : Prop where
  columns_increase : t.columns.Pairwise (· < ·)
  mem_columns : ∀ x, x ∈ t.columns ↔ x ∈ f.names
  length_rows : t.rows.length = 2 ^ t.columns.length
  rows_descend : (t.rows.map TruthRow.values).Pairwise (· > ·)
  mem_rows : ∀ values, values ∈ t.rows.map TruthRow.values ↔ values.length = t.columns.length
  result_eq : ∀ row ∈ t.rows, row.result = f.eval (.ofFirst (t.columns.zip row.values))
  tautology : t.isTautology = true ↔ ∀ v, f.eval v = true
  contradiction : t.isContradiction = true ↔ ∀ v, f.eval v = false
  classified : t.classify = .tautology ∧ (∀ v, f.eval v = true) ∨
    t.classify = .contradiction ∧ (∀ v, f.eval v = false) ∨
    t.classify = .contingent ∧ (∃ v, f.eval v = true) ∧ ∃ v, f.eval v = false
  models_nodup : t.models.Nodup
  mem_models : ∀ m, m ∈ t.models ↔
    m.map Prod.fst = t.columns ∧ f.eval (.ofFirst m) = true

section ValueLists

variable (f : Formula)

private theorem isTautology_ofValueLists :
    (ofValueLists f).isTautology = true ↔ ∀ v, f.eval v = true := by
  rw [← all_rows_iff f.pairwise_vars f.eval_eq_of_vars, isTautology, ofValueLists, List.all_map]
  rfl

private theorem isContradiction_ofValueLists :
    (ofValueLists f).isContradiction = true ↔ ∀ v, f.eval v = false := by
  have denied (v w : Valuation) (agree : ∀ x ∈ f.vars, (v x).getD false = (w x).getD false) :
      (!f.eval v) = !f.eval w :=
    congrArg _ (f.eval_eq_of_vars v w agree)
  simp only [← Bool.not_eq_true']
  rw [← all_rows_iff f.pairwise_vars denied, isContradiction, ofValueLists, List.all_map]
  rfl

private theorem classify_ofValueLists :
    (ofValueLists f).classify = .tautology ∧ (∀ v, f.eval v = true) ∨
      (ofValueLists f).classify = .contradiction ∧ (∀ v, f.eval v = false) ∨
      (ofValueLists f).classify = .contingent ∧ (∃ v, f.eval v = true) ∧ ∃ v, f.eval v = false := by
  unfold classify
  by_cases always : (ofValueLists f).isTautology = true
  · rw [if_pos always]
    exact Or.inl ⟨rfl, (isTautology_ofValueLists f).1 always⟩
  by_cases never : (ofValueLists f).isContradiction = true
  · rw [if_neg always, if_pos never]
    exact Or.inr (Or.inl ⟨rfl, (isContradiction_ofValueLists f).1 never⟩)
  rw [if_neg always, if_neg never]
  rw [isTautology_ofValueLists] at always
  rw [isContradiction_ofValueLists] at never
  simp only [not_forall, Bool.not_eq_true, Bool.not_eq_false] at always never
  exact Or.inr (Or.inr ⟨rfl, never, always⟩)

private theorem map_values_ofValueLists :
    (ofValueLists f).rows.map TruthRow.values = valueLists f.vars.length := by
  simp [ofValueLists, Function.comp_def]

private theorem models_ofValueLists :
    (ofValueLists f).models =
      ((valueLists f.vars.length).filter fun values => f.eval (.ofFirst (f.vars.zip values))).map
        f.vars.zip := by
  simp [models, ofValueLists, List.filter_map, Function.comp_def]

private theorem mem_models_ofValueLists (m : List (String × Bool)) :
    m ∈ (ofValueLists f).models ↔ m.map Prod.fst = f.vars ∧ f.eval (.ofFirst m) = true := by
  rw [models_ofValueLists, List.mem_map]
  constructor
  · rintro ⟨values, member, rfl⟩
    obtain ⟨listed, holds⟩ := List.mem_filter.1 member
    have long : values.length = f.vars.length := mem_valueLists.1 listed
    exact ⟨List.map_fst_zip (Nat.le_of_eq long.symm), holds⟩
  · rintro ⟨names, holds⟩
    have whole : f.vars.zip (m.map Prod.snd) = m := by
      rw [← names]
      exact (List.zip_of_prod rfl rfl).symm
    refine ⟨m.map Prod.snd, List.mem_filter.2 ⟨mem_valueLists.2 ?_, by rwa [whole]⟩, whole⟩
    rw [← names, List.length_map, List.length_map]

private theorem nodup_models_ofValueLists : (ofValueLists f).models.Nodup := by
  have values : (valueLists f.vars.length).Nodup := by
    refine (pairwise_valueLists _).imp ?_
    rintro values _ less rfl
    exact List.lt_irrefl values less
  rw [models_ofValueLists]
  refine List.Nodup.map_on ?_ (values.filter _)
  intro first inFirst second inSecond same
  have long := mem_valueLists.1 (List.mem_filter.1 inFirst).1
  have long' := mem_valueLists.1 (List.mem_filter.1 inSecond).1
  rw [← List.map_snd_zip (Nat.le_of_eq long), same, List.map_snd_zip (Nat.le_of_eq long')]

private theorem tabulates_ofValueLists : (ofValueLists f).Tabulates f where
  columns_increase := f.pairwise_vars
  mem_columns _ := Formula.mem_distinctNames
  length_rows := by simp [ofValueLists]
  rows_descend := map_values_ofValueLists f ▸ pairwise_valueLists _
  mem_rows values := by
    rw [map_values_ofValueLists]
    exact mem_valueLists
  result_eq row member := by
    obtain ⟨_, _, rfl⟩ := List.mem_map.1 member
    rfl
  tautology := isTautology_ofValueLists f
  contradiction := isContradiction_ofValueLists f
  classified := classify_ofValueLists f
  models_nodup := nodup_models_ofValueLists f
  mem_models := mem_models_ofValueLists f

end ValueLists

/-- Truth tables decide the semantics: a formula has no table just if it has more than 20 distinct variables,
and otherwise its table says under which valuations it is true. -/
theorem ofFormula_decides (f : Formula) :
    match ofFormula f with
    | .error e => 20 < f.names.toFinset.card ∧ e = ⟨f.names.toFinset.card⟩
    | .ok t => f.names.toFinset.card ≤ 20 ∧ t.Tabulates f := by
  rw [ofFormula_eq, ← f.length_vars]
  by_cases few : f.vars.length ≤ columnLimit
  · rw [if_pos few]
    exact ⟨few, tabulates_ofValueLists f⟩
  · rw [if_neg few]
    exact ⟨Nat.lt_of_not_le few, rfl⟩

end TruthTable

namespace Formula

private theorem equivalent_eq_map (f g : Formula) :
    f.equivalent g = (TruthTable.ofFormula (.binary .iff f g)).map TruthTable.isTautology := by
  change (rowCount (binary .iff f g).vars.length).map _ =
    ((rowCount (binary .iff f g).vars.length).map _).map _
  cases rowCount (binary .iff f g).vars.length with
  | error e => rfl
  | ok count =>
    simp only [Except.map, TruthTable.isTautology, List.all_map]
    rfl

private theorem forall_eval_iff (f g : Formula) :
    (∀ v, (binary .iff f g).eval v = true) ↔ ∀ v, f.eval v = g.eval v :=
  forall_congr' fun _ => beq_iff_eq

/-- Comparing two formulas row by row decides whether they agree under all valuations, if they have no more than
20 distinct variables together, and it is the same as tabulating that they are equivalent. -/
theorem equivalent_decides (f g : Formula) :
    (match f.equivalent g with
      | .error e => 20 < (f.names.toFinset ∪ g.names.toFinset).card ∧
          e = ⟨(f.names.toFinset ∪ g.names.toFinset).card⟩
      | .ok same => (f.names.toFinset ∪ g.names.toFinset).card ≤ 20 ∧
          (same = true ↔ ∀ v, f.eval v = g.eval v)) ∧
      f.equivalent g = (TruthTable.ofFormula (.binary .iff f g)).map TruthTable.isTautology := by
  refine ⟨?_, equivalent_eq_map f g⟩
  have count : (binary .iff f g).vars.length = (f.names.toFinset ∪ g.names.toFinset).card := by
    rw [length_vars, names, List.toFinset_append]
  rw [equivalent_eq_map, TruthTable.ofFormula_eq, count]
  by_cases few : (f.names.toFinset ∪ g.names.toFinset).card ≤ columnLimit
  · rw [if_pos few]
    exact ⟨few, (TruthTable.isTautology_ofValueLists _).trans (forall_eval_iff f g)⟩
  · rw [if_neg few]
    exact ⟨Nat.lt_of_not_le few, rfl⟩

end Formula

end NaturalDeduction

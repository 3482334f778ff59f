import NaturalDeduction.LineNumber
import NaturalDeduction.Proofs.Lists

set_option autoImplicit false
set_option relaxedAutoImplicit false

namespace NaturalDeduction

namespace Text

private theorem fields_eq_splitOn (separator : Char) (cs : List Char) :
    fields separator cs = cs.splitOn separator := by
  induction cs with
  | nil => rfl
  | cons c cs ih =>
    have step : (c :: cs).splitOn separator =
        if (c == separator) = true then [] :: cs.splitOn separator
        else (cs.splitOn separator).modifyHead (c :: ·) :=
      List.splitOnP_cons_eq_if_modifyHead ..
    rw [fields, ih, step]
    by_cases same : c = separator
    · simp [same]
    · simp only [same, if_false, beq_iff_eq]
      cases parts : cs.splitOn separator with
      | nil => exact absurd (ih.trans parts) (fields_ne_nil separator cs)
      | cons f fs => rfl

private theorem digitsValue_of_digits {cs : List Char} (digits : ∀ c ∈ cs, c.isDigit = true) (n : Nat) :
    digitsValue n cs = some (Nat.ofDigitChars 10 cs n) := by
  induction cs generalizing n with
  | nil => rfl
  | cons c cs ih =>
    rw [digitsValue, if_pos (digits c List.mem_cons_self), Nat.ofDigitChars_cons]
    exact ih (fun d member => digits d (List.mem_cons_of_mem _ member)) _

theorem isDigit_of_mem_toDigits (n : Nat) : ∀ c ∈ Nat.toDigits 10 n, c.isDigit = true :=
  fun _ member => Nat.isDigit_of_mem_toDigits (by decide) (by decide) member

private theorem isDigit_of_mem_toString {n : Nat} : ∀ c ∈ (toString n).toList, c.isDigit = true := by
  rw [Nat.toString_eq_ofList_toDigits, String.toList_ofList]
  exact isDigit_of_mem_toDigits n

private theorem decimal?_toString (n : Nat) : decimal? (toString n).toList = some n := by
  have digits : ∀ c ∈ (toString n).toList, c.isDigit = true := isDigit_of_mem_toString
  have value : digitsValue 0 (toString n).toList = some n := by
    rw [digitsValue_of_digits digits, Nat.toString_eq_ofList_toDigits, String.toList_ofList,
      Nat.ofDigitChars_ten_toDigits]
  cases spelled : (toString n).toList with
  | nil =>
    rw [Nat.toString_eq_ofList_toDigits, String.toList_ofList] at spelled
    exact absurd spelled Nat.toDigits_ne_nil
  | cons c cs =>
    rw [spelled] at digits value
    unfold decimal?
    split
    · rename_i sign
      rw [sign] at digits
      cases digits '+' List.mem_cons_self
    · exact value

/-- A counter as it may be written: decimal digits, with a plus sign before them or none. -/
structure Numeral where
  plus : Bool
  digits : List Char
  nonempty : digits ≠ []
  decimal : ∀ c ∈ digits, c.isDigit = true

namespace Numeral

def chars (n : Numeral) : List Char :=
  if n.plus then '+' :: n.digits else n.digits

def text (n : Numeral) : String :=
  String.ofList n.chars

/-- The number that the digits spell, the highest one first. -/
def value (n : Numeral) : Nat :=
  Nat.ofDigitChars 10 n.digits 0

/-- A numeral without a plus sign and without a zero in front. -/
def IsPlain (n : Numeral) : Prop :=
  n.plus = false ∧ n.digits.head? ≠ some '0'

end Numeral

private theorem digitsValue_eq_some {cs : List Char} {n v : Nat} (h : digitsValue n cs = some v) :
    (∀ c ∈ cs, c.isDigit = true) ∧ Nat.ofDigitChars 10 cs n = v := by
  have digits : ∀ c ∈ cs, c.isDigit = true := by
    induction cs generalizing n with
    | nil => simp
    | cons c cs ih =>
      rw [digitsValue] at h
      split at h
      · rename_i digit
        exact List.forall_mem_cons.2 ⟨digit, ih h⟩
      · cases h
  rw [digitsValue_of_digits digits] at h
  exact ⟨digits, Option.some.inj h⟩

private theorem digitChar_of_isDigit {c : Char} (digit : c.isDigit = true) :
    c.toNat - '0'.toNat < 10 ∧ Nat.digitChar (c.toNat - '0'.toNat) = c := by
  have range : 48 ≤ c.toNat ∧ c.toNat ≤ 57 := by
    simpa [Char.isDigit, UInt32.le_iff_toNat_le] using digit
  have below : c.toNat - '0'.toNat < 10 := by
    change c.toNat - 48 < 10
    omega
  refine ⟨below, Char.toNat_inj.1 ?_⟩
  rw [Nat.toNat_digitChar_of_lt_ten below]
  change 48 + (c.toNat - 48) = c.toNat
  omega

private theorem toDigits_append {cs : List Char} (digits : ∀ c ∈ cs, c.isDigit = true) {n : Nat} (positive : 0 < n) :
    Nat.toDigits 10 n ++ cs = Nat.toDigits 10 (Nat.ofDigitChars 10 cs n) := by
  induction cs generalizing n with
  | nil => simp [Nat.ofDigitChars_nil]
  | cons c cs ih =>
    obtain ⟨digit, later⟩ := List.forall_mem_cons.1 digits
    obtain ⟨below, same⟩ := digitChar_of_isDigit digit
    have step := Nat.toDigits_append_toDigits (b := 10) (by decide) positive below
    rw [Nat.toDigits_of_lt_base below, same] at step
    rw [Nat.ofDigitChars_cons, ← ih later (by omega), ← step, List.append_assoc, List.singleton_append]

private theorem head_toDigits_ne_zero {n : Nat} (positive : 0 < n) : (Nat.toDigits 10 n).head? ≠ some '0' := by
  induction n using Nat.strongRecOn with
  | ind n ih =>
    by_cases single : n < 10
    · rw [Nat.toDigits_of_lt_base single, List.head?_cons]
      intro zero
      exact absurd (Nat.digitChar_eq_zero.1 (Option.some.inj zero)) (Nat.ne_of_gt positive)
    · rw [Nat.toDigits_of_base_le (by decide) (by omega), List.head?_append_of_ne_nil _ Nat.toDigits_ne_nil]
      exact ih (n / 10) (by omega) (by omega)

private theorem toDigits_ofDigitChars {cs : List Char} (digits : ∀ c ∈ cs, c.isDigit = true)
    (nonempty : cs ≠ []) (leads : cs.head? ≠ some '0') :
    Nat.toDigits 10 (Nat.ofDigitChars 10 cs 0) = cs := by
  cases cs with
  | nil => exact absurd rfl nonempty
  | cons c cs =>
    obtain ⟨digit, later⟩ := List.forall_mem_cons.1 digits
    obtain ⟨below, same⟩ := digitChar_of_isDigit digit
    have positive : 0 < c.toNat - '0'.toNat := by
      refine Nat.pos_of_ne_zero fun zero => ?_
      rw [zero] at same
      exact leads (congrArg some same.symm)
    rw [Nat.ofDigitChars_cons, Nat.mul_zero, Nat.zero_add, ← toDigits_append later positive,
      Nat.toDigits_of_lt_base below, same, List.singleton_append]

namespace Numeral

private theorem exists_of_decimal? {cs : List Char} {v : Nat} (h : decimal? cs = some v) :
    ∃ n : Numeral, n.chars = cs ∧ n.value = v := by
  have digits {ds : List Char} (read : unsigned? ds = some v) :
      ds ≠ [] ∧ (∀ c ∈ ds, c.isDigit = true) ∧ Nat.ofDigitChars 10 ds 0 = v := by
    cases ds with
    | nil => cases read
    | cons d ds => exact ⟨List.cons_ne_nil _ _, digitsValue_eq_some read⟩
  unfold decimal? at h
  split at h
  · obtain ⟨nonempty, decimal, value⟩ := digits h
    exact ⟨⟨true, _, nonempty, decimal⟩, rfl, value⟩
  · obtain ⟨nonempty, decimal, value⟩ := digits h
    exact ⟨⟨false, _, nonempty, decimal⟩, rfl, value⟩

private theorem decimal?_chars (n : Numeral) : decimal? n.chars = some n.value := by
  obtain ⟨plus, digits, nonempty, decimal⟩ := n
  have unsigned : unsigned? digits = some (Nat.ofDigitChars 10 digits 0) := by
    cases digits with
    | nil => exact absurd rfl nonempty
    | cons c cs => exact digitsValue_of_digits decimal 0
  cases plus with
  | true => exact unsigned
  | false =>
    change decimal? digits = _
    unfold decimal?
    split
    · cases decimal '+' List.mem_cons_self
    · exact unsigned

private theorem dot_not_mem_chars (n : Numeral) : '.' ∉ n.chars := by
  have digitless : '.' ∉ n.digits := fun dot => by cases n.decimal '.' dot
  cases sign : n.plus <;> simp [chars, sign, digitless]

private theorem toString_value_eq_iff {n : Numeral} (positive : 0 < n.value) :
    (toString n.value).toList = n.chars ↔ n.IsPlain := by
  rw [Nat.toString_eq_ofList_toDigits, String.toList_ofList]
  constructor
  · intro same
    have unsigned : n.plus = false := by
      refine Bool.eq_false_iff.2 fun plus => ?_
      have digits := isDigit_of_mem_toDigits n.value
      rw [same, chars, if_pos plus] at digits
      cases digits '+' List.mem_cons_self
    refine ⟨unsigned, ?_⟩
    have leads := head_toDigits_ne_zero positive
    rwa [same, chars, if_neg (by simp [unsigned])] at leads
  · rintro ⟨unsigned, leads⟩
    rw [chars, if_neg (by simp [unsigned])]
    exact toDigits_ofDigitChars n.decimal n.nonempty leads

end Numeral

end Text

namespace LineNumber

private theorem ofSegments?_segments (l : LineNumber) : ofSegments? l.segments = some l :=
  dif_pos ⟨l.nonempty, l.valid⟩

private theorem fields_text (l : LineNumber) :
    Text.fields '.' l.text.toList = (l.segments.map toString).map String.toList := by
  have dotless : ∀ f ∈ (l.segments.map toString).map String.toList, '.' ∉ f := by
    intro f member dot
    obtain ⟨s, listed, rfl⟩ := List.mem_map.1 member
    obtain ⟨n, _, rfl⟩ := List.mem_map.1 listed
    cases Text.isDigit_of_mem_toString '.' dot
  have some : (l.segments.map toString).map String.toList ≠ [] := by
    simpa using l.nonempty
  rw [Text.fields_eq_splitOn, text, String.toList_intercalate]
  exact List.splitOn_intercalate '.' dotless some

/-- A line number is read back from its text. -/
theorem parse_text (l : LineNumber) : parse l.text = .ok l := by
  have values : (Text.fields '.' l.text.toList).mapM Text.decimal? = .some l.segments := by
    rw [fields_text, mapM_eq_some, List.forall₂_map_left_iff, List.forall₂_map_left_iff,
      List.forall₂_same]
    exact fun n _ => Text.decimal?_toString n
  simp only [parse, values, Option.bind_some, ofSegments?_segments]

def dotted (ns : List Text.Numeral) : String :=
  String.intercalate "." (ns.map Text.Numeral.text)

/-- A text that is some numerals in range with dots between them. -/
structure Written (s : String) (ns : List Text.Numeral) : Prop where
  nonempty : ns ≠ []
  spelled : s = dotted ns
  range : ∀ n ∈ ns, 1 ≤ n.value ∧ n.value ≤ counterLimit

private theorem toList_dotted (ns : List Text.Numeral) :
    (dotted ns).toList = ['.'].intercalate (ns.map Text.Numeral.chars) := by
  rw [dotted, String.toList_intercalate, List.map_map]
  congr 2
  funext n
  exact String.toList_ofList

private theorem fields_dotted {ns : List Text.Numeral} (nonempty : ns ≠ []) :
    Text.fields '.' (dotted ns).toList = ns.map Text.Numeral.chars := by
  rw [Text.fields_eq_splitOn, toList_dotted]
  refine List.splitOn_intercalate '.' (fun f member => ?_) (by simpa using nonempty)
  obtain ⟨n, _, rfl⟩ := List.mem_map.1 member
  exact n.dot_not_mem_chars

private theorem ofSegments?_eq_some {ns : List Nat} {l : LineNumber} (h : ofSegments? ns = some l) :
    l.segments = ns := by
  unfold ofSegments? at h
  split at h
  · cases h
    rfl
  · cases h

private theorem parse_eq_ok {s : String} {l : LineNumber} (h : parse s = .ok l) :
    (Text.fields '.' s.toList).mapM Text.decimal? = some l.segments := by
  unfold parse at h
  split at h
  · rename_i found
    obtain ⟨values, read, line⟩ := Option.bind_eq_some_iff.1 found
    cases h
    rw [read, ofSegments?_eq_some line]
  · cases h

private theorem parse_of_written {s : String} {ns : List Text.Numeral} (h : Written s ns) :
    ∃ l, parse s = .ok l ∧ l.segments = ns.map Text.Numeral.value := by
  have values : (Text.fields '.' s.toList).mapM Text.decimal? = some (ns.map Text.Numeral.value) := by
    rw [h.spelled, fields_dotted h.nonempty, mapM_eq_some, List.forall₂_map_left_iff,
      List.forall₂_map_right_iff, List.forall₂_same]
    exact fun n _ => n.decimal?_chars
  have range : ∀ v ∈ ns.map Text.Numeral.value, 0 < v ∧ v ≤ counterLimit := by
    intro v member
    obtain ⟨n, listed, rfl⟩ := List.mem_map.1 member
    exact h.range n listed
  refine ⟨⟨_, by simpa using h.nonempty, range⟩, ?_, rfl⟩
  simp only [parse, values, Option.bind_some]
  rw [ofSegments?, dif_pos ⟨by simpa using h.nonempty, range⟩]

private theorem exists_numerals {fs : List (List Char)} {vs : List Nat}
    (read : List.Forall₂ (fun f v => Text.decimal? f = some v) fs vs) :
    ∃ ns : List Text.Numeral, ns.map Text.Numeral.chars = fs ∧ ns.map Text.Numeral.value = vs := by
  induction read with
  | nil => exact ⟨[], rfl, rfl⟩
  | cons first _ ih =>
    obtain ⟨n, chars, value⟩ := Text.Numeral.exists_of_decimal? first
    obtain ⟨ns, fields, values⟩ := ih
    exact ⟨n :: ns, by rw [List.map_cons, chars, fields], by rw [List.map_cons, value, values]⟩

private theorem written_of_parse {s : String} {l : LineNumber} (h : parse s = .ok l) : ∃ ns, Written s ns := by
  obtain ⟨ns, fields, values⟩ := exists_numerals (mapM_eq_some.1 (parse_eq_ok h))
  refine ⟨ns, ?_, ?_, fun n member => ?_⟩
  · rintro rfl
    exact l.nonempty values.symm
  · apply String.toList_inj.1
    rw [toList_dotted, fields, Text.fields_eq_splitOn, List.intercalate_splitOn]
  · exact l.valid n.value (values ▸ List.mem_map_of_mem member)

private theorem text_eq_iff_plain {s : String} {ns : List Text.Numeral} {l : LineNumber} (h : Written s ns)
    (values : l.segments = ns.map Text.Numeral.value) : l.text = s ↔ ∀ n ∈ ns, n.IsPlain := by
  have digits : Text.fields '.' l.text.toList = ns.map fun n => (toString n.value).toList := by
    rw [fields_text, values]
    simp [Function.comp_def]
  have same : l.text = s ↔ Text.fields '.' l.text.toList = Text.fields '.' s.toList := by
    rw [Text.fields_eq_splitOn, Text.fields_eq_splitOn]
    refine ⟨fun eq => by rw [eq], fun eq => String.toList_inj.1 ?_⟩
    have joined := congrArg (['.'].intercalate ·) eq
    rwa [List.intercalate_splitOn, List.intercalate_splitOn] at joined
  -- two texts agree just if their fields do, and each field is the digits of its value or another numeral for it
  rw [same, digits, h.spelled, fields_dotted h.nonempty, List.map_inj_left]
  exact forall₂_congr fun n member => Text.Numeral.toString_value_eq_iff (h.range n member).1

private theorem parse_eq_error {s : String} {e : Invalid} (h : parse s = .error e) : e = ⟨s⟩ := by
  unfold parse at h
  split at h
  · cases h
  · exact (Except.error.inj h).symm

/-- A line number is read back from its text. A text is read just if it is numerals in range with dots between them, as
the line number of their values, which has this text just if the numerals are plain; any other text is refused as it
is. -/
theorem parse_iff_written :
    (∀ l : LineNumber, parse l.text = .ok l) ∧
      ∀ s : String,
        ((∃ l, parse s = .ok l) ↔ ∃ ns, Written s ns) ∧
          (∀ ns, Written s ns → ∃ l, parse s = .ok l ∧ l.segments = ns.map Text.Numeral.value ∧
            (l.text = s ↔ ∀ n ∈ ns, n.IsPlain)) ∧
          ((¬∃ ns, Written s ns) → parse s = .error ⟨s⟩) := by
  refine ⟨parse_text, fun s => ⟨⟨fun ⟨l, read⟩ => written_of_parse read, fun ⟨ns, written⟩ => ?_⟩,
    fun ns written => ?_, fun unwritten => ?_⟩⟩
  · obtain ⟨l, read, _⟩ := parse_of_written written
    exact ⟨l, read⟩
  · obtain ⟨l, read, values⟩ := parse_of_written written
    exact ⟨l, read, values, text_eq_iff_plain written values⟩
  · cases outcome : parse s with
    | ok l => exact absurd (written_of_parse outcome) unwritten
    | error e => rw [parse_eq_error outcome]

/-- A plus sign and zeros in front are read and not written again; a part without digits is refused. -/
theorem parse_iff_written_signed_segment :
    (∃ ns, Written "2.+007" ns ∧ ∃ l, parse "2.+007" = .ok l ∧ l.segments = [2, 7] ∧ l.text ≠ "2.+007") ∧
      (¬∃ ns, Written "2..1" ns) ∧ parse "2..1" = .error ⟨"2..1"⟩ := by
  have written : Written "2.+007"
      [⟨false, ['2'], by simp, by simp⟩, ⟨true, ['0', '0', '7'], by simp, by simp⟩] :=
    ⟨by simp, by decide, by decide⟩
  have unwritten : ¬∃ ns, Written "2..1" ns := by
    rintro ⟨ns, nonempty, spelled, _⟩
    have fields : ns.map Text.Numeral.chars = [['2'], [], ['1']] := by
      rw [← fields_dotted nonempty, ← spelled]
      decide
    obtain ⟨n, _, empty⟩ := List.mem_map.1 (show [] ∈ ns.map Text.Numeral.chars by simp [fields])
    have digitless : Text.decimal? n.chars = none := by rw [empty]; rfl
    rw [n.decimal?_chars] at digitless
    cases digitless
  obtain ⟨_, reads⟩ := parse_iff_written
  obtain ⟨l, read, values, plain⟩ := (reads "2.+007").2.1 _ written
  refine ⟨⟨_, written, l, read, values, fun same => ?_⟩, unwritten, (reads "2..1").2.2 unwritten⟩
  exact absurd (plain.1 same _ (List.mem_cons_of_mem _ List.mem_cons_self)).1 (by decide)

end LineNumber

end NaturalDeduction

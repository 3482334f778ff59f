import NaturalDeduction.Json.Reader
import NaturalDeduction.Proofs.Text.LineNumber

/-!
JSON text is read back. The reader is a machine that is run over the lexemes of a text; the text of a value takes it
from a place where a value is due to the place after this value, whatever is around it.
-/

set_option autoImplicit false
set_option relaxedAutoImplicit false

namespace NaturalDeduction.Json

private theorem string?_code {code rest : List Char} {x : Char} (four : code.length = 4)
    (value : (hex? code).bind scalar? = some x) :
    string? ('\\' :: 'u' :: (code ++ rest)) = prepend x (string? rest) := by
  match code, four with
  | [a, b, c, d], _ => simp [string?, value]

private theorem code_fourDigits : ∀ n < 0x20, (fourDigits n).toList.length = 4 ∧
    (hex? (fourDigits n).toList).bind scalar? = some (Char.ofNat n) := by
  decide

private theorem string?_escaped (c : Char) (rest : List Char) :
    string? ((escaped c).toList ++ rest) = prepend c (string? rest) := by
  unfold escaped
  split
  · rfl
  · rfl
  · rfl
  · rfl
  · rfl
  · rfl
  · rfl
  · rename_i quote backslash _ _ _ _ _
    split
    · rename_i small
      obtain ⟨four, value⟩ := code_fourDigits c.toNat small
      rw [Char.ofNat_toNat] at value
      rw [String.toList_append]
      exact string?_code four value
    · rename_i large
      have plain : string? (c :: rest) = if c.toNat < 0x20 then none else prepend c (string? rest) := by
        rw [string?]
        · exact quote
        · exact fun _ _ _ _ _ same _ => backslash same
        · exact fun _ _ same _ => backslash same
      rw [if_neg large] at plain
      simpa using plain

private theorem string?_quote (s : String) (rest : List Char) :
    string? ((String.join (s.toList.map escaped)).toList ++ '"' :: rest) = some (s.toList, rest) := by
  induction s.toList with
  | nil => rfl
  | cons c cs ih =>
    rw [List.map_cons, String.join_cons, String.toList_append, List.append_assoc, string?_escaped, ih]
    rfl

private theorem exists_toDigits_eq_cons {n : Nat} (positive : 0 < n) :
    ∃ c cs, Nat.toDigits 10 n = c :: cs ∧ c ≠ '0' := by
  induction n using Nat.strongRecOn with
  | ind n ih =>
    by_cases small : n < 10
    · refine ⟨n.digitChar, [], Nat.toDigits_of_lt_base small, ?_⟩
      have digits : ∀ n < 10, 0 < n → n.digitChar ≠ '0' := by decide
      exact digits n small positive
    · -- the first digit is also that of the number without its last digit
      obtain ⟨c, cs, front, other⟩ := ih (n / 10) (by omega) (by omega)
      refine ⟨c, cs ++ [(n % 10).digitChar], ?_, other⟩
      rw [Nat.toDigits_of_base_le (by decide) (by omega), front, List.cons_append]

private theorem isInteger_toDigits (n : Nat) : isInteger (Nat.toDigits 10 n) = true := by
  rcases Nat.eq_zero_or_pos n with rfl | positive
  · decide
  · have digits : (Nat.toDigits 10 n).all Char.isDigit = true :=
      List.all_eq_true.2 (Text.isDigit_of_mem_toDigits n)
    obtain ⟨c, cs, eq, other⟩ := exists_toDigits_eq_cons positive
    rw [eq] at digits ⊢
    rw [isInteger]
    · simpa [areDigits] using digits
    · exact fun same => other (List.cons.inj same).1
    · exact fun _ same => other (List.cons.inj same).1

private theorem unsigned?_toDigits {negative : Bool} {n : Nat} (signed : negative = true → n ≠ 0) :
    unsigned? negative (Nat.toDigits 10 n) = some (.int (if negative then -(n : Int) else n)) := by
  have whole : (Nat.toDigits 10 n).takeWhile Char.isDigit = Nat.toDigits 10 n :=
    List.takeWhile_eq_self_iff.2 (Text.isDigit_of_mem_toDigits n)
  have nothing : (Nat.toDigits 10 n).dropWhile Char.isDigit = [] :=
    List.dropWhile_eq_nil_iff.2 (Text.isDigit_of_mem_toDigits n)
  have value : digitsValue (Nat.toDigits 10 n) = n := Nat.ofDigitChars_ten_toDigits
  have proper : (!(negative && n == 0)) = true := by
    cases negative with
    | false => rfl
    | true => simpa using signed rfl
  simp only [unsigned?, whole, nothing, isInteger_toDigits, isFraction, isExponent, value, proper,
    List.isEmpty_nil, Bool.and_self, if_true]

private theorem number?_toString (n : Int) :
    number? (toString n).toList = some (.int n) ∧
      (∀ c ∈ (toString n).toList, isNumberChar c = true) ∧ (toString n).toList ≠ [] := by
  have number (k : Nat) : ∀ c ∈ Nat.toDigits 10 k, isNumberChar c = true := by
    intro c member
    simp [isNumberChar, Text.isDigit_of_mem_toDigits k c member]
  cases n with
  | ofNat k =>
    have text : (toString (Int.ofNat k)).toList = Nat.toDigits 10 k := String.toList_ofList
    rw [text]
    refine ⟨?_, number k, Nat.toDigits_ne_nil⟩
    unfold number?
    split
    · rename_i sign
      have minus := Text.isDigit_of_mem_toDigits k '-' (by rw [sign]; exact List.mem_cons_self)
      cases minus
    · exact unsigned?_toDigits (by simp)
  | negSucc k =>
    have text : (toString (Int.negSucc k)).toList = '-' :: Nat.toDigits 10 (k + 1) := by
      change ("-" ++ Nat.repr (k + 1)).toList = _
      simp [Nat.repr_eq_ofList_toDigits]
    rw [text]
    refine ⟨?_, ?_, by simp⟩
    · exact unsigned?_toDigits (by simp)
    · intro c member
      rcases List.mem_cons.1 member with rfl | digit
      · rfl
      · exact number _ c digit

/-- What may follow a number or a word: nothing that could belong to it. -/
def Ends (rest : List Char) : Prop :=
  ∀ c ∈ rest.head?, isNumberChar c = false ∧ c.isAlpha = false

private theorem ends_nil : Ends [] := by
  intro c member
  cases member

private theorem lexemes?_punctuation {c : Char} {l : Lexeme} (known : punctuation? c = some l)
    (rest : List Char) : lexemes? (c :: rest) = (lexemes? rest).map (l :: ·) := by
  unfold punctuation? at known
  rw [lexemes?]
  split at known <;> cases known <;> rfl

private theorem lexemes?_quote (s : String) (rest : List Char) :
    lexemes? ((quote s).toList ++ rest) = (lexemes? rest).map (.string s :: ·) := by
  have quoted : (quote s).toList ++ rest =
      '"' :: ((String.join (s.toList.map escaped)).toList ++ '"' :: rest) := by
    simp [quote]
  rw [quoted, lexemes?, if_neg (by decide), if_pos rfl]
  split
  · rename_i none
    rw [string?_quote] at none
    cases none
  · rename_i xs tail found
    rw [string?_quote] at found
    cases found
    rw [String.ofList_toList]

private theorem of_isNumberChar {c : Char} (h : isNumberChar c = true) : isBlank c = false ∧ c ≠ '"' := by
  have others (d : Char) (not : isNumberChar d = false) : c ≠ d := by
    rintro rfl
    rw [h] at not
    cases not
  have blanks : c ≠ ' ' ∧ c ≠ '\t' ∧ c ≠ '\n' ∧ c ≠ '\r' :=
    ⟨others _ rfl, others _ rfl, others _ rfl, others _ rfl⟩
  exact ⟨by simp [isBlank, blanks], others _ rfl⟩

private theorem lexemes?_int (n : Int) {rest : List Char} (ends : Ends rest) :
    lexemes? ((toString n).toList ++ rest) = (lexemes? rest).map (.atom (.int n) :: ·) := by
  obtain ⟨value, number, some⟩ := number?_toString n
  cases text : (toString n).toList with
  | nil => exact absurd text some
  | cons c cs =>
    rw [text] at value number
    have stops : ∀ d ∈ rest.head?, isNumberChar d = false := fun d member => (ends d member).1
    have more : ∀ d ∈ cs, isNumberChar d = true := fun d member =>
      number d (List.mem_cons_of_mem _ member)
    have first := number c List.mem_cons_self
    obtain ⟨visible, unquoted⟩ := of_isNumberChar first
    rw [List.cons_append, lexemes?]
    simp [visible, unquoted, first, takeWhile_append_of_stops more stops,
      dropWhile_append_of_stops more stops, value]

private theorem lexemes?_word {c : Char} {cs : List Char} {j : Json}
    (letters : (c :: cs).all Char.isAlpha = true)
    (first : (isBlank c || c == '"' || isNumberChar c) = false) (known : literal? (c :: cs) = some j)
    {rest : List Char} (ends : Ends rest) :
    lexemes? (c :: cs ++ rest) = (lexemes? rest).map (.atom j :: ·) := by
  rw [List.all_cons, Bool.and_eq_true] at letters
  have stops : ∀ d ∈ rest.head?, d.isAlpha = false := fun d member => (ends d member).2
  have more := List.all_eq_true.1 letters.2
  simp only [Bool.or_eq_false_iff, beq_eq_false_iff_ne] at first
  rw [List.cons_append, lexemes?]
  simp [first, letters.1, takeWhile_append_of_stops more stops,
    dropWhile_append_of_stops more stops, known]

private theorem lexemes?_null {rest : List Char} (ends : Ends rest) :
    lexemes? (null.text.toList ++ rest) = (lexemes? rest).map (.atom null :: ·) := by
  have text : null.text.toList = ['n', 'u', 'l', 'l'] := rfl
  rw [text]
  exact lexemes?_word rfl rfl rfl ends

private theorem lexemes?_bool (b : Bool) {rest : List Char} (ends : Ends rest) :
    lexemes? ((bool b).text.toList ++ rest) = (lexemes? rest).map (.atom (bool b) :: ·) := by
  have yes : (bool true).text.toList = ['t', 'r', 'u', 'e'] := rfl
  have no : (bool false).text.toList = ['f', 'a', 'l', 's', 'e'] := rfl
  cases b with
  | true =>
    rw [yes]
    exact lexemes?_word rfl rfl rfl ends
  | false =>
    rw [no]
    exact lexemes?_word rfl rfl rfl ends

/-- `Readable n j` says that `j` is a value with at most `n` arrays and objects around any of its parts, in which
no object has a name twice and every number is an integer. -/
inductive Readable : Nat → Json → Prop
  | null {n : Nat} : Readable n null
  | bool {n : Nat} (b : Bool) : Readable n (bool b)
  | int {n : Nat} (i : Int) : Readable n (int i)
  | str {n : Nat} (s : String) : Readable n (str s)
  | arr {n : Nat} {items : List Json} (each : ∀ j ∈ items, Readable n j) :
      Readable (n + 1) (arr items)
  | obj {n : Nat} {fields : List (String × Json)} (once : (fields.map Prod.fst).Nodup)
      (each : ∀ f ∈ fields, Readable n f.2) : Readable (n + 1) (obj fields)

def run (m : Machine) (cs : List Char) : Option Machine :=
  (lexemes? cs).bind (·.foldlM Machine.step m)

private theorem run_nil (m : Machine) : run m [] = some m := by
  rw [run, lexemes?]
  rfl

private theorem run_of_lexeme {m : Machine} {l : Lexeme} {cs rest : List Char}
    (front : lexemes? cs = (lexemes? rest).map (l :: ·)) :
    run m cs = (m.step l).bind fun next => run next rest := by
  rw [run, front]
  cases later : lexemes? rest <;> cases taken : m.step l <;> simp [run, later, taken]

private theorem run_punctuation {m next : Machine} {l : Lexeme} {c : Char} (known : punctuation? c = some l)
    (step : m.step l = some next) (rest : List Char) : run m (c :: rest) = run next rest := by
  rw [run_of_lexeme (lexemes?_punctuation known rest), step, Option.bind_some]

private theorem run_quote {m next : Machine} {s : String} (step : m.step (.string s) = some next)
    (rest : List Char) : run m ((quote s).toList ++ rest) = run next rest := by
  rw [run_of_lexeme (lexemes?_quote s rest), step, Option.bind_some]

/-- A value is due inside some frames; instead of the first value of an array its end may come. -/
def Awaits (m : Machine) (frames : List Frame) : Prop :=
  ∀ l, l ≠ .closeArray → m.step l = Machine.beginValue frames l

private theorem awaits_value (frames : List Frame) : Awaits (.value frames) frames :=
  fun _ _ => rfl

private theorem awaits_firstItem (frames : List Frame) :
    Awaits (.firstItem frames) (.array [] :: frames) := by
  intro l other
  cases l with
  | closeArray => exact absurd rfl other
  | _ => rfl

/-- Where a value is due, its text takes the machine past it. -/
def ReadBack (n : Nat) (j : Json) : Prop :=
  ∀ m frames rest, Awaits m frames → frames.length + n ≤ nestingLimit → Ends rest →
    run m (j.text.toList ++ rest) = run (.close j frames) rest

private theorem readBack_atom {n : Nat} {j : Json}
    (front : ∀ rest, Ends rest → lexemes? (j.text.toList ++ rest) = (lexemes? rest).map (.atom j :: ·)) :
    ReadBack n j := by
  intro m frames rest awaits _ ends
  rw [run_of_lexeme (front rest ends), awaits _ Lexeme.noConfusion]
  rfl

private theorem readBack_str {n : Nat} (s : String) : ReadBack n (str s) := by
  intro m frames rest awaits _ _
  rw [text, run_of_lexeme (lexemes?_quote s rest), awaits _ Lexeme.noConfusion]
  rfl

private theorem toList_intercalate_cons (t : String) (ts : List String) :
    (String.intercalate "," (t :: ts)).toList = t.toList ++ ts.flatMap fun u => ',' :: u.toList := by
  induction ts generalizing t with
  | nil => simp
  | cons u us ih => simp [String.intercalate_cons_cons, ih]

private theorem itemTexts_eq (items : List Json) : itemTexts items = items.map text := by
  induction items with
  | nil => rfl
  | cons j js ih => rw [itemTexts, ih, List.map_cons]

def fieldText (f : String × Json) : String :=
  quote f.1 ++ ":" ++ f.2.text

private theorem fieldTexts_eq (fields : List (String × Json)) : fieldTexts fields = fields.map fieldText := by
  induction fields with
  | nil => rfl
  | cons f fs ih => rw [fieldTexts, ih, List.map_cons, fieldText]

def moreItems (items : List Json) : List Char :=
  items.flatMap fun j => ',' :: j.text.toList

def moreFields (fields : List (String × Json)) : List Char :=
  fields.flatMap fun f => ',' :: (fieldText f).toList

private theorem toList_text_arr (j : Json) (js : List Json) :
    (arr (j :: js)).text.toList = '[' :: (j.text.toList ++ (moreItems js ++ [']'])) := by
  rw [text, itemTexts_eq, List.map_cons, String.toList_append, String.toList_append,
    toList_intercalate_cons, List.flatMap_map, List.append_assoc, List.append_assoc]
  rfl

private theorem toList_text_obj (f : String × Json) (fs : List (String × Json)) :
    (obj (f :: fs)).text.toList =
      '\x7b' :: ((fieldText f).toList ++ (moreFields fs ++ ['\x7d'])) := by
  rw [text, fieldTexts_eq, List.map_cons, String.toList_append, String.toList_append,
    toList_intercalate_cons, List.flatMap_map, List.append_assoc, List.append_assoc]
  rfl

private theorem ends_cons {c : Char} (ends : (isNumberChar c || c.isAlpha) = false) (rest : List Char) :
    Ends (c :: rest) := by
  intro d first
  cases first
  simpa using ends

private theorem ends_moreItems (items : List Json) (rest : List Char) :
    Ends (moreItems items ++ ']' :: rest) := by
  cases items with
  | nil => exact ends_cons rfl _
  | cons j js => exact ends_cons rfl _

private theorem ends_moreFields (fields : List (String × Json)) (rest : List Char) :
    Ends (moreFields fields ++ '\x7d' :: rest) := by
  cases fields with
  | nil => exact ends_cons rfl _
  | cons f fs => exact ends_cons rfl _

variable {n : Nat}

private theorem run_moreItems {items : List Json} (each : ∀ j ∈ items, ReadBack n j) {frames : List Frame}
    (within : frames.length + (n + 1) ≤ nestingLimit) (before : List Json) (rest : List Char) :
    run (.afterItem before frames) (moreItems items ++ ']' :: rest) =
      run (.close (.arr (before.reverse ++ items)) frames) rest := by
  induction items generalizing before with
  | nil =>
    rw [List.append_nil]
    exact run_punctuation rfl rfl rest
  | cons j js ih =>
    have comma : Machine.step (.afterItem before frames) .comma =
        some (.value (.array before :: frames)) := rfl
    have deeper : (Frame.array before :: frames).length + n ≤ nestingLimit := by
      rw [List.length_cons]
      omega
    have split : moreItems (j :: js) ++ ']' :: rest =
        ',' :: (j.text.toList ++ (moreItems js ++ ']' :: rest)) := by
      simp [moreItems]
    rw [split, run_punctuation rfl comma,
      each j List.mem_cons_self _ _ _ (awaits_value _) deeper (ends_moreItems js rest)]
    -- the machine holds the items in reverse, so the one just read is now the first before the rest
    have after := ih (fun k member => each k (List.mem_cons_of_mem _ member)) (j :: before)
    simpa [Machine.close] using after

private theorem readBack_arr {items : List Json} (each : ∀ j ∈ items, ReadBack n j) :
    ReadBack (n + 1) (arr items) := by
  intro m frames rest awaits within _
  have opens : m.step .openArray = some (.firstItem frames) := by
    rw [awaits _ Lexeme.noConfusion]
    exact if_pos (by omega)
  cases items with
  | nil =>
    have brackets : (arr []).text.toList = ['[', ']'] := rfl
    rw [brackets, List.cons_append, run_punctuation rfl opens]
    exact run_punctuation rfl rfl rest
  | cons j js =>
    have deeper : (Frame.array [] :: frames).length + n ≤ nestingLimit := by
      rw [List.length_cons]
      omega
    rw [toList_text_arr, List.cons_append, run_punctuation rfl opens, List.append_assoc,
      List.append_assoc, List.singleton_append,
      each j List.mem_cons_self _ _ _ (awaits_firstItem _) deeper (ends_moreItems js rest)]
    exact run_moreItems (fun k member => each k (List.mem_cons_of_mem _ member)) within [j] rest

private theorem run_fieldText {m : Machine} {fields : List (String × Json)} {frames : List Frame}
    {f : String × Json} (due : m.step (.string f.1) = some (.colon fields f.1 frames))
    (back : ReadBack n f.2) (within : frames.length + (n + 1) ≤ nestingLimit)
    {rest : List Char} (ends : Ends rest) :
    run m ((fieldText f).toList ++ rest) =
      run (.afterField (setField fields f.1 f.2) frames) rest := by
  have deeper : (Frame.object fields f.1 :: frames).length + n ≤ nestingLimit := by
    rw [List.length_cons]
    omega
  have split : (fieldText f).toList ++ rest = (quote f.1).toList ++ ':' :: (f.2.text.toList ++ rest) := by
    simp [fieldText]
  have colon : Machine.step (.colon fields f.1 frames) .colon =
      some (.value (.object fields f.1 :: frames)) := rfl
  rw [split, run_quote due, run_punctuation rfl colon, back _ _ _ (awaits_value _) deeper ends]
  rfl

private theorem setField_of_notMem {fields : List (String × Json)} {name : String}
    (new : name ∉ fields.map Prod.fst) (value : Json) :
    setField fields name value = fields ++ [(name, value)] := by
  have all : fields.filter (fun f => f.1 != name) = fields := by
    rw [List.filter_eq_self]
    intro f member
    rw [bne_iff_ne]
    rintro rfl
    exact new (List.mem_map_of_mem member)
  rw [setField, all]

private theorem run_moreFields {fields : List (String × Json)} (each : ∀ f ∈ fields, ReadBack n f.2)
    {frames : List Frame} (within : frames.length + (n + 1) ≤ nestingLimit)
    (before : List (String × Json)) (once : ((before ++ fields).map Prod.fst).Nodup)
    (rest : List Char) :
    run (.afterField before frames) (moreFields fields ++ '\x7d' :: rest) =
      run (.close (.obj (before ++ fields)) frames) rest := by
  induction fields generalizing before with
  | nil =>
    rw [List.append_nil]
    exact run_punctuation rfl rfl rest
  | cons f fs ih =>
    have comma : Machine.step (.afterField before frames) .comma =
        some (.fieldName before frames) := rfl
    have split : moreFields (f :: fs) ++ '\x7d' :: rest =
        ',' :: ((fieldText f).toList ++ (moreFields fs ++ '\x7d' :: rest)) := by
      simp [moreFields]
    -- a name that came before would be taken out, as the later of two fields with one name counts
    have new : f.1 ∉ before.map Prod.fst := by
      rw [List.map_append, List.map_cons] at once
      exact fun member => (List.nodup_append.1 once).2.2 _ member _ List.mem_cons_self rfl
    rw [List.append_cons] at once
    rw [split, run_punctuation rfl comma,
      run_fieldText rfl (each f List.mem_cons_self) within (ends_moreFields fs rest),
      setField_of_notMem new,
      ih (fun g member => each g (List.mem_cons_of_mem _ member)) _ once, ← List.append_cons]

private theorem readBack_obj {fields : List (String × Json)} (once : (fields.map Prod.fst).Nodup)
    (each : ∀ f ∈ fields, ReadBack n f.2) : ReadBack (n + 1) (obj fields) := by
  intro m frames rest awaits within _
  have opens : m.step .openObject = some (.firstName frames) := by
    rw [awaits _ Lexeme.noConfusion]
    exact if_pos (by omega)
  cases fields with
  | nil =>
    have braces : (obj []).text.toList = ['\x7b', '\x7d'] := rfl
    rw [braces, List.cons_append, run_punctuation rfl opens]
    exact run_punctuation rfl rfl rest
  | cons f fs =>
    rw [toList_text_obj, List.cons_append, run_punctuation rfl opens, List.append_assoc,
      List.append_assoc, List.singleton_append,
      run_fieldText rfl (each f List.mem_cons_self) within (ends_moreFields fs rest)]
    exact run_moreFields (fun g member => each g (List.mem_cons_of_mem _ member)) within [f] once rest

/-- The text of a readable value is read back. -/
private theorem readBack_of_readable {j : Json} (readable : Readable n j) : ReadBack n j := by
  induction readable with
  | null => exact readBack_atom fun _ ends => lexemes?_null ends
  | bool b => exact readBack_atom fun _ ends => lexemes?_bool b ends
  | int i => exact readBack_atom fun _ ends => lexemes?_int i ends
  | str s => exact readBack_str s
  | arr _ ih => exact readBack_arr ih
  | obj once _ ih => exact readBack_obj once ih

/-- The text of a readable value spells this value. -/
theorem parse_text {j : Json} (readable : Readable nestingLimit j) : parse j.text = some j := by
  have whole : run (.value []) j.text.toList = some (.done j) := by
    have read := readBack_of_readable readable (.value []) [] [] (awaits_value []) (by simp) ends_nil
    rwa [List.append_nil, run_nil] at read
  obtain ⟨ls, lexemes, machine⟩ := Option.bind_eq_some_iff.1 whole
  simp only [parse, lexemes, machine, Option.bind_eq_bind, Option.bind_some]

end NaturalDeduction.Json

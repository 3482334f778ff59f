import NaturalDeduction.Counter
import NaturalDeduction.Text.Field
import NaturalDeduction.Text.Quoted

set_option autoImplicit false
set_option relaxedAutoImplicit false

namespace NaturalDeduction

/-- The segments of a line number, the outermost first. -/
structure LineNumber where
  segments : List Nat
  nonempty : segments ≠ []
  valid : ∀ n ∈ segments, 0 < n ∧ n ≤ counterLimit
  deriving DecidableEq

namespace LineNumber

def ofSegments? (ns : List Nat) : Option LineNumber :=
  if h : ns ≠ [] ∧ ∀ n ∈ ns, 0 < n ∧ n ≤ counterLimit then some ⟨ns, h.1, h.2⟩ else none

def ofGrown (ns : List Nat) : Except Exhausted LineNumber :=
  match ofSegments? ns with
  | some l => .ok l
  | none => .error .lineNumber

def first : LineNumber := ⟨[1], by decide, by decide⟩

def increment : List Nat → List Nat
  | [] => []
  | [n] => [n + 1]
  | n :: ns => n :: increment ns

@[simp] theorem length_increment (ns : List Nat) : (increment ns).length = ns.length := by
  fun_induction increment ns with
  | case1 => rfl
  | case2 => rfl
  | case3 _ _ _ ih => simp [ih]

def nextSibling (l : LineNumber) : Except Exhausted LineNumber :=
  ofGrown (increment l.segments)

def firstChild (l : LineNumber) : LineNumber where
  segments := l.segments ++ [1]
  nonempty := by simp
  valid := by
    intro n member
    rcases List.mem_append.1 member with old | new
    · exact l.valid n old
    · rw [List.mem_singleton.1 new]
      decide

def afterSubproof (l : LineNumber) : Except Exhausted LineNumber :=
  match l.segments with
  | _ :: _ :: _ => ofGrown (increment l.segments.dropLast)
  | _ => l.nextSibling

def text (l : LineNumber) : String :=
  String.intercalate "." (l.segments.map toString)

/-- The order of line numbers: by the segments from the left. -/
def compare (l m : LineNumber) : Ordering :=
  compareOfLessAndEq l.segments m.segments

structure Invalid where
  input : String
  deriving DecidableEq, Repr

def Invalid.message (e : Invalid) : String :=
  "Invalid line number: " ++ Text.quoted e.input

/-- The line number that a text spells: counters in decimal, each after an optional plus sign, with dots
between them. -/
def parse (s : String) : Except Invalid LineNumber :=
  match ((Text.fields '.' s.toList).mapM Text.decimal?).bind ofSegments? with
  | some l => .ok l
  | none => .error ⟨s⟩

end LineNumber

end NaturalDeduction

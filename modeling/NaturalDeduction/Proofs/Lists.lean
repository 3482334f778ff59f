import Mathlib

set_option autoImplicit false
set_option relaxedAutoImplicit false

namespace NaturalDeduction

variable {α β : Type}

theorem mapM_eq_some {f : α → Option β} {xs : List α} {ys : List β} :
    xs.mapM f = some ys ↔ List.Forall₂ (fun x y => f x = some y) xs ys := by
  constructor
  · intro found
    induction xs generalizing ys with
    | nil =>
      cases found
      exact .nil
    | cons x xs ih =>
      rw [List.mapM_cons] at found
      obtain ⟨y, here, found⟩ := Option.bind_eq_some_iff.1 found
      obtain ⟨rest, later, found⟩ := Option.bind_eq_some_iff.1 found
      cases found
      exact .cons here (ih later)
  · intro found
    induction found with
    | nil => rfl
    | cons here _ ih =>
      rw [List.mapM_cons, here, ih]
      rfl

theorem exists_of_mapM {f : α → Option β} {xs : List α} {ys : List β} (found : xs.mapM f = some ys) :
    ∀ y ∈ ys, ∃ x ∈ xs, f x = some y := by
  have placed := mapM_eq_some.1 found
  clear found
  induction placed with
  | nil => simp
  | cons here _ ih =>
    intro y member
    rcases List.mem_cons.1 member with rfl | later
    · exact ⟨_, List.mem_cons_self, here⟩
    · obtain ⟨x, listed, eq⟩ := ih y later
      exact ⟨x, List.mem_cons_of_mem _ listed, eq⟩

section Fold

variable {ε : Type} {f : β → α → Except ε β} {xs : List α} {b c : β}

/-- What holds at first and is kept with each entry holds after a fold that succeeds. -/
theorem foldlM_induction {P : β → Prop} (done : xs.foldlM f b = .ok c) (first : P b)
    (entry : ∀ d x d', x ∈ xs → P d → f d x = .ok d' → P d') : P c := by
  induction xs generalizing b with
  | nil =>
    cases done
    exact first
  | cons x xs ih =>
    rw [List.foldlM_cons] at done
    cases here : f b x with
    | error e =>
      rw [here] at done
      cases done
    | ok d =>
      rw [here] at done
      exact ih done (entry b x d List.mem_cons_self first here) fun d x d' member =>
        entry d x d' (List.mem_cons_of_mem _ member)

theorem exists_of_foldlM_eq_error {e : ε} (failed : xs.foldlM f b = .error e) :
    ∃ before x after d, xs = before ++ x :: after ∧ before.foldlM f b = .ok d ∧ f d x = .error e := by
  induction xs generalizing b with
  | nil => cases failed
  | cons x xs ih =>
    rw [List.foldlM_cons] at failed
    cases here : f b x with
    | error e' =>
      rw [here] at failed
      cases failed
      exact ⟨[], x, xs, b, rfl, rfl, here⟩
    | ok d =>
      rw [here] at failed
      obtain ⟨before, y, after, d', rfl, gone, stuck⟩ := ih failed
      refine ⟨x :: before, y, after, d', rfl, ?_, stuck⟩
      rw [List.foldlM_cons, here]
      exact gone

end Fold

variable {p : α → Bool} {xs rest : List α}

theorem takeWhile_eq_nil_iff_head : xs.takeWhile p = [] ↔ ∀ x ∈ xs.head?, p x = false := by
  cases xs with
  | nil => simp
  | cons x xs => cases own : p x <;> simp [own]

theorem takeWhile_append_of_stops (all : ∀ x ∈ xs, p x = true) (stops : ∀ x ∈ rest.head?, p x = false) :
    (xs ++ rest).takeWhile p = xs := by
  rw [List.takeWhile_append_of_pos all]
  cases rest with
  | nil => simp
  | cons x rest => simp [stops x rfl]

theorem dropWhile_append_of_stops (all : ∀ x ∈ xs, p x = true) (stops : ∀ x ∈ rest.head?, p x = false) :
    (xs ++ rest).dropWhile p = rest := by
  rw [List.dropWhile_append_of_pos all]
  cases rest with
  | nil => rfl
  | cons x rest => simp [stops x rfl]

end NaturalDeduction

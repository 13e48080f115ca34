import Mathlib.Data.List.Basic
import Mathlib.Data.List.Induction

/-! # Windows of a trace

Some occurrences open a window and some close it. A trace is guarded against other
occurrences if they never come while a window is open.
-/

namespace Concurrency

variable {Occurrence : Type} {opens closes breaks : Occurrence → Prop}
  {trace : List Occurrence} {last : Occurrence}

/-- Something has opened a window, and nothing has closed it since. -/
def Open (opens closes : Occurrence → Prop) (trace : List Occurrence) : Prop :=
  ∃ front opening rest, trace = front ++ opening :: rest ∧ opens opening ∧
    ∀ later ∈ rest, ¬ closes later

/-- Between an occurrence that opens a window and one that breaks in, there is one that
closes it. -/
def Guarded (opens closes breaks : Occurrence → Prop) (trace : List Occurrence) : Prop :=
  ∀ front opening middle breaking back,
    trace = front ++ opening :: (middle ++ breaking :: back) → opens opening → breaks breaking →
    ∃ closing ∈ middle, closes closing

theorem not_open_nil : ¬ Open opens closes [] := by
  rintro ⟨front, opening, rest, whole, -⟩
  exact absurd whole (List.append_ne_nil_of_right_ne_nil _ (List.cons_ne_nil _ _)).symm

/-- The last occurrence opens a window, or it leaves one open. -/
theorem open_concat :
    Open opens closes (trace ++ [last]) ↔
      opens last ∨ (Open opens closes trace ∧ ¬ closes last) := by
  constructor
  · rintro ⟨front, opening, rest, whole, opened, kept⟩
    rcases List.eq_nil_or_concat' rest with rfl | ⟨rest, final, rfl⟩
    · obtain ⟨-, same⟩ := List.append_inj' whole rfl
      cases same
      exact .inl opened
    · have grouped : trace ++ [last] = (front ++ opening :: rest) ++ [final] := by
        rw [whole, List.append_assoc, List.cons_append]
      obtain ⟨rfl, same⟩ := List.append_inj' grouped rfl
      cases same
      refine .inr ⟨⟨front, opening, rest, rfl, opened, fun later member => ?_⟩, ?_⟩
      · exact kept later (List.mem_append_left _ member)
      · exact kept last (List.mem_append_right _ List.mem_cons_self)
  · rintro (opened | ⟨⟨front, opening, rest, rfl, opened, kept⟩, stays⟩)
    · exact ⟨trace, last, [], rfl, opened, nofun⟩
    · refine ⟨front, opening, rest ++ [last], List.append_assoc .., opened, fun later member => ?_⟩
      rcases List.mem_append.mp member with before | now
      · exact kept later before
      · rw [List.mem_singleton.mp now]
        exact stays

theorem guarded_nil : Guarded opens closes breaks [] := by
  intro front opening middle breaking back whole
  exact absurd whole (List.append_ne_nil_of_right_ne_nil _ (List.cons_ne_nil _ _)).symm

/-- A guarded trace goes on being guarded if the last occurrence does not break in. -/
theorem guarded_concat :
    Guarded opens closes breaks (trace ++ [last]) ↔
      Guarded opens closes breaks trace ∧ (breaks last → ¬ Open opens closes trace) := by
  constructor
  · intro guarded
    constructor
    · rintro front opening middle breaking back rfl opened broken
      refine guarded front opening middle breaking (back ++ [last]) ?_ opened broken
      rw [List.append_assoc, List.cons_append, List.append_assoc, List.cons_append]
    · rintro broken ⟨front, opening, rest, rfl, opened, kept⟩
      obtain ⟨closing, member, closed⟩ :=
        guarded front opening rest last [] (List.append_assoc ..) opened broken
      exact kept closing member closed
  · rintro ⟨guarded, last_guarded⟩ front opening middle breaking back whole opened broken
    rcases List.eq_nil_or_concat' back with rfl | ⟨back, final, rfl⟩
    · have grouped : trace ++ [last] = (front ++ opening :: middle) ++ [breaking] := by
        rw [whole, List.append_assoc, List.cons_append]
      obtain ⟨rfl, same⟩ := List.append_inj' grouped rfl
      cases same
      by_contra unclosed
      refine last_guarded broken
        ⟨front, opening, middle, rfl, opened, fun later member closed => ?_⟩
      exact unclosed ⟨later, member, closed⟩
    · have grouped : trace ++ [last] =
          (front ++ opening :: (middle ++ breaking :: back)) ++ [final] := by
        simp only [whole, List.append_assoc, List.cons_append]
      obtain ⟨rfl, -⟩ := List.append_inj' grouped rfl
      exact guarded front opening middle breaking back rfl opened broken

/-- If anything opens a window, something was the last to do so. -/
theorem open_of_mem {opening : Occurrence} (member : opening ∈ trace) (opened : opens opening) :
    Open opens opens trace := by
  induction trace using List.reverseRecOn with
  | nil => cases member
  | append_singleton trace last ih =>
      rw [open_concat]
      by_cases now : opens last
      · exact .inl now
      · refine .inr ⟨ih ?_, now⟩
        rcases List.mem_append.mp member with before | only
        · exact before
        · rw [List.mem_singleton.mp only] at opened
          exact absurd opened now

end Concurrency

/-
  Trimmed texts.

  A run of characters of one class, with a character of another behind it, is what `takeWhile`
  and `dropWhile` cut off (`takeWhile_run`, `dropWhile_run`).  So a trimmed text is what remains
  of a text without blanks at its ends (`Text.trim_surrounded`), and blanks around a text that
  has none leave it as it is (`Text.trim_eq`).
-/
import Mathlib.Data.List.Basic
import Mathlib.Data.List.TakeWhile
import Reckon.Text.Blank

namespace Reckon

/-! ### Runs of one class -/

section Runs

variable {α : Type} {p : α → Bool} {run after : List α}

theorem takeWhile_run (all : ∀ a ∈ run, p a = true) (ends : ∀ a ∈ after.head?, p a = false) :
    (run ++ after).takeWhile p = run := by
  have none : after.takeWhile p = [] := by
    cases after with
    | nil => rfl
    | cons a as => simp [ends a rfl]
  rw [List.takeWhile_append_of_pos all, none, List.append_nil]

theorem dropWhile_run (all : ∀ a ∈ run, p a = true) (ends : ∀ a ∈ after.head?, p a = false) :
    (run ++ after).dropWhile p = after := by
  have none : after.dropWhile p = after := by
    cases after with
    | nil => rfl
    | cons a as => simp [ends a rfl]
  rw [List.dropWhile_append_of_pos all, none]

theorem takeWhile_whole (all : ∀ a ∈ run, p a = true) :
    run.takeWhile p = run ∧ run.dropWhile p = [] := by
  have taken : (run ++ []).takeWhile p = run := takeWhile_run all nofun
  have dropped : (run ++ []).dropWhile p = [] := dropWhile_run all nofun
  rw [List.append_nil] at taken dropped
  exact ⟨taken, dropped⟩

end Runs

/-! ### Blanks at the ends -/

namespace Text

variable {text core lead trail : List Char}

theorem trimEnd_append_blanks (text : List Char) :
    ∃ blanks, text = trimEnd text ++ blanks ∧ ∀ c ∈ blanks, isBlank c = true := by
  refine ⟨(text.reverse.takeWhile isBlank).reverse, ?_, ?_⟩
  · rw [trimEnd, ← List.reverse_append, List.takeWhile_append_dropWhile, List.reverse_reverse]
  · intro c member
    exact List.mem_takeWhile_imp (List.mem_reverse.1 member)

theorem mem_of_mem_trimEnd {c : Char} (member : c ∈ trimEnd text) : c ∈ text := by
  obtain ⟨blanks, eq, -⟩ := trimEnd_append_blanks text
  rw [eq]
  exact List.mem_append_left blanks member

theorem trim_surrounded (text : List Char) :
    ∃ lead trail, text = lead ++ (trim text ++ trail) ∧ (∀ c ∈ lead, isBlank c = true) ∧
      ∀ c ∈ trail, isBlank c = true := by
  obtain ⟨trail, eq, trailing⟩ := trimEnd_append_blanks (text.dropWhile isBlank)
  refine ⟨text.takeWhile isBlank, trail, ?_, fun c => List.mem_takeWhile_imp, trailing⟩
  rw [trim, ← eq, List.takeWhile_append_dropWhile]

/-- Blanks around a text without any are all that is taken away. -/
theorem trim_eq (begun : core ≠ []) (solid : ∀ c ∈ core, isBlank c = false)
    (leading : ∀ c ∈ lead, isBlank c = true) (trailing : ∀ c ∈ trail, isBlank c = true) :
    trim (lead ++ (core ++ trail)) = core := by
  have first : ∀ c ∈ (core ++ trail).head?, isBlank c = false := by
    rw [List.head?_append_of_ne_nil _ begun]
    exact fun c member => solid c (List.mem_of_mem_head? member)
  have last : ∀ c ∈ core.reverse.head?, isBlank c = false :=
    fun c member => solid c (List.mem_reverse.1 (List.mem_of_mem_head? member))
  have behind : ∀ c ∈ trail.reverse, isBlank c = true :=
    fun c member => trailing c (List.mem_reverse.1 member)
  rw [trim, dropWhile_run leading first, trimEnd, List.reverse_append,
    dropWhile_run behind last, List.reverse_reverse]

end Text

end Reckon

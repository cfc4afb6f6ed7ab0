import Mathlib.Data.List.TakeWhile
import TapeMachine.Text.Blank

namespace TapeMachine

/-- Trimming takes away a front that is dropped altogether. -/
theorem trimStart_eq_append (drop : Char → Bool) (text : List Char) :
    ∃ front, text = front ++ trimStart drop text ∧ front.all drop = true :=
  ⟨text.takeWhile drop, (List.takeWhile_append_dropWhile).symm,
    List.all_eq_true.mpr fun _ => List.mem_takeWhile_imp⟩

theorem trimStart_append {drop : Char → Bool} {front text : List Char} (dropped : front.all drop = true)
    (kept : ∀ c ∈ text.head?, drop c = false) : trimStart drop (front ++ text) = text := by
  rw [trimStart, List.dropWhile_append_of_pos (List.all_eq_true.mp dropped)]
  cases text with
  | nil => rfl
  | cons c text => rw [List.dropWhile_cons_of_neg (by simp [kept c rfl])]

theorem trimEnd_eq_append (drop : Char → Bool) (text : List Char) :
    ∃ ends, text = trimEnd drop text ++ ends ∧ ends.all drop = true ∧
      ∀ c ∈ (trimEnd drop text).getLast?, drop c = false := by
  refine ⟨(text.reverse.takeWhile drop).reverse, ?_, ?_, ?_⟩
  · rw [trimEnd, ← List.reverse_append, List.takeWhile_append_dropWhile, List.reverse_reverse]
  · rw [List.all_reverse]
    exact List.all_eq_true.mpr fun _ => List.mem_takeWhile_imp
  · intro c last
    have kept := List.head?_dropWhile_not drop text.reverse
    rw [trimEnd, List.getLast?_reverse] at last
    rw [last] at kept
    simpa using kept

theorem trimEnd_append {drop : Char → Bool} {text ends : List Char} (dropped : ends.all drop = true)
    (kept : ∀ c ∈ text.getLast?, drop c = false) : trimEnd drop (text ++ ends) = text := by
  have reversed : trimStart drop (ends.reverse ++ text.reverse) = text.reverse :=
    trimStart_append (by rwa [List.all_reverse]) (by rwa [List.head?_reverse])
  rw [trimEnd, List.reverse_append, ← trimStart, reversed, List.reverse_reverse]

/-- The end is trimmed behind a text that does not end with anything that is dropped. -/
theorem trimEnd_behind {drop : Char → Bool} {text : List Char} (kept : ∀ c ∈ text.getLast?, drop c = false)
    (tail : List Char) : trimEnd drop (text ++ tail) = text ++ trimEnd drop tail := by
  obtain ⟨ends, split, dropped, last⟩ := trimEnd_eq_append drop tail
  have joined : text ++ tail = text ++ trimEnd drop tail ++ ends := by rw [List.append_assoc, ← split]
  rw [joined]
  refine trimEnd_append dropped ?_
  intro c ending
  rw [List.getLast?_append] at ending
  rcases trimmed : (trimEnd drop tail).getLast? with _ | d <;> rw [trimmed] at ending
  · exact kept c ending
  · obtain rfl := Option.some.inj ending
    exact last _ trimmed

theorem trimEnd_begins (drop : Char → Bool) (text : List Char) : trimEnd drop text <+: text := by
  rw [← List.reverse_suffix, trimEnd, List.reverse_reverse]
  exact List.dropWhile_suffix drop

/-- What is trimmed at both ends begins with the first character that is not dropped. -/
theorem head?_trim (drop : Char → Bool) (text : List Char) :
    (trim drop text).head? = text.find? (fun c => !drop c) := by
  rw [List.find?_not_eq_head?_dropWhile]
  have front : trim drop text <+: text.dropWhile drop := trimEnd_begins drop _
  rcases kept : text.dropWhile drop with _ | ⟨first, rest⟩
  · rw [kept] at front
    rw [List.prefix_nil.mp front]
  have stays : ¬ ∀ c ∈ (first :: rest).reverse, drop c = true := by
    intro dropped
    have fails := List.head?_dropWhile_not drop text
    rw [kept] at fails
    cases (dropped first (by simp)).symm.trans fails
  rcases trimmed : trim drop text with _ | ⟨c, more⟩
  · rw [trim, trimStart, kept, trimEnd, List.reverse_eq_nil_iff] at trimmed
    exact absurd (List.dropWhile_eq_nil_iff.mp trimmed) stays
  · rw [trimmed, kept] at front
    exact congrArg some (List.cons_prefix_cons.mp front).1

/-- Nothing is trimmed from a text of characters that are not dropped. -/
theorem trim_of_kept {drop : Char → Bool} {text : List Char} (kept : ∀ c ∈ text, drop c = false) :
    trim drop text = text := by
  have whole (part : List Char) (same : ∀ c ∈ part, drop c = false) : part.dropWhile drop = part := by
    rw [List.dropWhile_eq_self_iff]
    intro some_there
    simp [same _ (List.getElem_mem some_there)]
  rw [trim, trimStart, whole text kept, trimEnd, whole, List.reverse_reverse]
  intro c member
  exact kept c (List.mem_reverse.mp member)

/-- What is trimmed at both ends. -/
theorem trim_eq_append (drop : Char → Bool) (text : List Char) :
    ∃ front ends, text = front ++ trim drop text ++ ends ∧ front.all drop = true ∧
      ends.all drop = true := by
  obtain ⟨front, split, dropped⟩ := trimStart_eq_append drop text
  obtain ⟨ends, split', closing, -⟩ := trimEnd_eq_append drop (trimStart drop text)
  refine ⟨front, ends, ?_, dropped, closing⟩
  rw [List.append_assoc, trim, ← split', ← split]

theorem trim_append {drop : Char → Bool} {front text ends : List Char} (some_text : text ≠ [])
    (dropped : front.all drop = true) (closing : ends.all drop = true)
    (first : ∀ c ∈ text.head?, drop c = false) (last : ∀ c ∈ text.getLast?, drop c = false) :
    trim drop (front ++ text ++ ends) = text := by
  obtain ⟨c, rest, rfl⟩ := List.exists_cons_of_ne_nil some_text
  have begins : ∀ d ∈ (c :: rest ++ ends).head?, drop d = false := first
  rw [trim, List.append_assoc, trimStart_append dropped begins, trimEnd_append closing last]

/-- Characters that stand for others are trimmed as those are. -/
theorem trim_map (drop : Char → Bool) (stands : Char → Char) (text : List Char) :
    trim drop (text.map stands) = (trim (drop ∘ stands) text).map stands := by
  simp only [trim, trimStart, trimEnd, List.dropWhile_map, ← List.map_reverse]

end TapeMachine

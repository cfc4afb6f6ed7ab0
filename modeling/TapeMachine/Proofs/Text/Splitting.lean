import TapeMachine.Text.Words

namespace TapeMachine

namespace Words

/-- A character that stands for itself wherever it is. -/
def isPlain (c : Char) : Bool := !isSeparator c && c ≠ Quoted.backslash && !isQuote c

theorem isPlain_of_isDigit {c : Char} (digit : c.isDigit = true) : isPlain c = true := by
  have other (d : Char) (mark : d.isDigit = false) : c ≠ d := by
    rintro rfl
    cases digit.symm.trans mark
  simp [isPlain, isSeparator, isQuote, other _ (by decide : ' '.isDigit = false),
    other _ (by decide : '\t'.isDigit = false), other _ (by decide : '\r'.isDigit = false),
    other _ (by decide : '\n'.isDigit = false), other _ (by decide : Quoted.backslash.isDigit = false),
    other _ (by decide : Quoted.apostrophe.isDigit = false),
    other _ (by decide : Quoted.quotationMark.isDigit = false)]

/-- A plain character begins a word or goes on with it. -/
theorem scan_plain {c : Char} (plain : isPlain c = true) (word : List Char) (found : List String)
    (rest : List Char) :
    scan .between word found (c :: rest) = scan .inside [c] found rest ∧
      scan .inside word found (c :: rest) = scan .inside (c :: word) found rest := by
  simp only [isPlain, Bool.and_eq_true, Bool.not_eq_true', decide_eq_true_eq] at plain
  simp only [scan, plain.1.1, plain.1.2, plain.2, if_false, Bool.false_eq_true, and_self]

theorem scan_inside {text : List Char} (plain : ∀ c ∈ text, isPlain c = true) (word : List Char)
    (found : List String) (rest : List Char) :
    scan .inside word found (text ++ rest) = scan .inside (text.reverse ++ word) found rest := by
  induction text generalizing word with
  | nil => rfl
  | cons c text ih =>
    rw [List.forall_mem_cons] at plain
    rw [List.cons_append, (scan_plain plain.1 ..).2, ih plain.2, List.reverse_cons, List.append_assoc]
    rfl

theorem scan_word {text : List Char} (some_text : text ≠ []) (plain : ∀ c ∈ text, isPlain c = true)
    (found : List String) (rest : List Char) :
    scan .between [] found (text ++ rest) = scan .inside text.reverse found rest := by
  obtain ⟨c, text, rfl⟩ := List.exists_cons_of_ne_nil some_text
  rw [List.forall_mem_cons] at plain
  rw [List.cons_append, (scan_plain plain.1 ..).1, scan_inside plain.2, List.reverse_cons]

/-- Plain characters at the end are the last word. -/
theorem scan_last {text : List Char} (some_text : text ≠ []) (plain : ∀ c ∈ text, isPlain c = true)
    (found : List String) : scan .between [] found text = .ok (String.ofList text :: found).reverse := by
  have whole := scan_word some_text plain found []
  rwa [List.append_nil, scan, List.reverse_reverse] at whole

theorem split_plain {text : List Char} (some_text : text ≠ []) (plain : ∀ c ∈ text, isPlain c = true) :
    split text = .ok [String.ofList text] :=
  scan_last some_text plain []

theorem split_pair {one two : List Char} (some_one : one ≠ []) (some_two : two ≠ [])
    (plain : ∀ c ∈ one ++ two, isPlain c = true) :
    split (one ++ ' ' :: two) = .ok [String.ofList one, String.ofList two] := by
  rw [List.forall_mem_append] at plain
  have space (word : List Char) (rest : List Char) :
      scan .inside word [] (' ' :: rest) = scan .between [] [String.ofList word.reverse] rest := by
    simp [scan, isSeparator]
  rw [split, scan_word some_one plain.1, space, List.reverse_reverse, scan_last some_two plain.2]
  rfl

/-- Without quotes and backslashes, a line can always be split. -/
theorem split_unquoted {text : List Char}
    (unquoted : ∀ c ∈ text, c ≠ Quoted.backslash ∧ isQuote c = false) : ∃ words, split text = .ok words := by
  have scanned (word : List Char) (found : List String) :
      (∃ words, scan .between word found text = .ok words) ∧
        ∃ words, scan .inside word found text = .ok words := by
    induction text generalizing word found with
    | nil => exact ⟨⟨_, rfl⟩, ⟨_, rfl⟩⟩
    | cons c text ih =>
      rw [List.forall_mem_cons] at unquoted
      simp only [scan, unquoted.1.1, unquoted.1.2, if_false, Bool.false_eq_true]
      cases isSeparator c with
      | true => exact ⟨(ih unquoted.2 _ _).1, (ih unquoted.2 _ _).1⟩
      | false => exact ⟨(ih unquoted.2 _ _).2, (ih unquoted.2 _ _).2⟩
  exact (scanned [] []).1

end Words

end TapeMachine

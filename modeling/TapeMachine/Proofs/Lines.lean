import TapeMachine.Generator.Lines
import Mathlib.Data.List.DropRight
import Mathlib.Data.List.Infix

namespace TapeMachine

namespace Lines

theorem segments_eq_splitOn (data : List UInt8) : segments data = data.splitOn lineFeed := by
  induction data with
  | nil => rfl
  | cons byte rest ih =>
    rw [segments, List.splitOn_cons_eq_if_modifyHead, ih]
    by_cases feed : byte = lineFeed
    · simp [feed]
    · rcases pieces : rest.splitOn lineFeed with _ | ⟨segment, more⟩
      · exact absurd pieces (List.splitOn_ne_nil _ _)
      · simp [feed]

/-- A text taken apart at its line feeds. -/
inductive Parts : List UInt8 → List (List UInt8) → List UInt8 → Prop
  | last {segment : List UInt8} : lineFeed ∉ segment → Parts segment [] segment
  | ended {segment rest last : List UInt8} {ended : List (List UInt8)} : lineFeed ∉ segment →
      Parts rest ended last → Parts (segment ++ lineFeed :: rest) (segment :: ended) last

theorem exists_parts (data : List UInt8) : ∃ ended last, Parts data ended last := by
  induction data with
  | nil => exact ⟨[], [], .last (List.not_mem_nil)⟩
  | cons byte rest ih =>
    obtain ⟨ended, last, parts⟩ := ih
    by_cases feed : byte = lineFeed
    · subst feed
      exact ⟨[] :: ended, last, @Parts.ended [] rest last ended List.not_mem_nil parts⟩
    cases parts with
    | last clean => exact ⟨[], byte :: rest, .last (by simp [Ne.symm feed, clean])⟩
    | @ended segment rest _ ended clean parts =>
      have longer : lineFeed ∉ byte :: segment := by simp [Ne.symm feed, clean]
      exact ⟨(byte :: segment) :: ended, last, .ended longer parts⟩

namespace Parts

variable {data last : List UInt8} {ended : List (List UInt8)}

theorem clean (parts : Parts data ended last) : ∀ segment ∈ ended ++ [last], lineFeed ∉ segment := by
  induction parts with
  | last clean => simpa using clean
  | ended clean _ ih =>
    intro segment member
    rcases List.mem_cons.mp member with rfl | later
    · exact clean
    · exact ih segment later

theorem splitOn (parts : Parts data ended last) : data.splitOn lineFeed = ended ++ [last] := by
  induction parts with
  | last clean => exact List.splitOn_eq_singleton clean
  | ended clean _ ih => rw [List.splitOn_append_cons_self_of_not_mem clean, ih, List.cons_append]

theorem last_eq_nil_iff (parts : Parts data ended last) :
    last = [] ↔ data = [] ∨ data.getLast? = some lineFeed := by
  induction parts with
  | @last segment clean =>
    refine ⟨.inl, fun whole => whole.elim id fun feed => ?_⟩
    exact absurd (List.mem_of_getLast? feed) clean
  | @ended segment rest last ended _ _ ih =>
    rw [ih, List.getLast?_append_of_ne_nil _ (by simp)]
    rcases rest with _ | ⟨byte, rest⟩ <;> simp

/-- The text ends with a line feed if there is one and nothing stands behind the last one. -/
theorem isEnded_iff (parts : Parts data ended last) :
    data.getLast? = some lineFeed ↔ last = [] ∧ ended ≠ [] := by
  rw [parts.last_eq_nil_iff]
  cases parts with
  | last clean =>
    have other : data.getLast? ≠ some lineFeed := fun feed => clean (List.mem_of_getLast? feed)
    simp [other]
  | ended => simp

theorem rtakeWhile (parts : Parts data ended last) : data.rtakeWhile (· ≠ lineFeed) = last := by
  induction parts with
  | last clean =>
    rw [List.rtakeWhile_eq_self_iff]
    intro byte member
    rw [decide_eq_true_iff]
    rintro rfl
    exact clean member
  | @ended segment rest last ended _ _ ih =>
    have stop : (lineFeed :: segment.reverse).takeWhile (· ≠ lineFeed) = [] := by simp
    have split : (segment ++ lineFeed :: rest).reverse = rest.reverse ++ lineFeed :: segment.reverse := by
      simp
    rw [← ih, List.rtakeWhile, List.rtakeWhile, split, List.takeWhile_append, stop, List.append_nil]
    split_ifs with all
    · rw [(List.takeWhile_prefix _).eq_of_length all]
    · rfl

/-- What stands before a line feed, behind the first segment that is ended. -/
theorem forall_feed_cons {segment rest : List UInt8} (clean : lineFeed ∉ segment)
    (property : Prop → Prop) :
    (∀ before after, segment ++ lineFeed :: rest = before ++ lineFeed :: after →
        property (before.getLast? = some carriageReturn)) ↔
      property (segment.getLast? = some carriageReturn) ∧
        ∀ before after, rest = before ++ lineFeed :: after →
          property (before.getLast? = some carriageReturn) := by
  have behind (before : List UInt8) :
      ((segment ++ lineFeed :: before).getLast? = some carriageReturn) =
        (before.getLast? = some carriageReturn) := by
    rw [List.getLast?_append_of_ne_nil _ (by simp)]
    rcases before with _ | ⟨byte, before⟩
    · simp [lineFeed, carriageReturn]
    · simp
  constructor
  · intro all
    refine ⟨all segment rest rfl, fun before after split => ?_⟩
    have later := all (segment ++ lineFeed :: before) after (by simp [split])
    rwa [behind] at later
  · rintro ⟨first, others⟩ before after split
    rcases List.append_eq_append_iff.mp split with ⟨extra, longer, tail⟩ | ⟨extra, shorter, tail⟩
    · rcases extra with _ | ⟨byte, extra⟩
      · rw [longer, List.append_nil]
        exact first
      · obtain ⟨rfl, rest_split⟩ := List.cons_eq_cons.mp tail
        rw [longer, behind]
        exact others extra after rest_split
    · rcases extra with _ | ⟨byte, extra⟩
      · rw [← List.append_nil before, ← shorter]
        exact first
      · obtain ⟨rfl, -⟩ := List.cons_eq_cons.mp tail
        exact absurd (by simp [shorter]) clean

/-- What stands before the line feeds of a text are its ended segments. -/
theorem forall_feed (parts : Parts data ended last) (property : Prop → Prop) :
    (∀ before after, data = before ++ lineFeed :: after →
        property (before.getLast? = some carriageReturn)) ↔
      ∀ segment ∈ ended, property (segment.getLast? = some carriageReturn) := by
  induction parts with
  | last clean =>
    refine ⟨fun _ segment member => absurd member List.not_mem_nil, fun _ before after split => ?_⟩
    exact absurd (by simp [split]) clean
  | ended clean _ ih => rw [forall_feed_cons clean, ih, List.forall_mem_cons]

end Parts

theorem hasReturns_iff (data : List UInt8) :
    hasReturns data = true ↔ [carriageReturn, lineFeed] <:+: data := by
  induction data with
  | nil => simp [hasReturns]
  | cons first rest ih =>
    rcases rest with _ | ⟨second, rest⟩
    · simp [hasReturns, List.infix_cons_iff]
    · rw [hasReturns, List.infix_cons_iff, ← ih, List.cons_prefix_cons, List.cons_prefix_cons,
        @eq_comm _ carriageReturn, @eq_comm _ lineFeed]
      simp

theorem infix_iff (data : List UInt8) :
    [carriageReturn, lineFeed] <:+: data ↔ ∃ before after, data = before ++ lineFeed :: after ∧
      before.getLast? = some carriageReturn := by
  constructor
  · rintro ⟨before, after, rfl⟩
    exact ⟨before ++ [carriageReturn], after, by simp, by simp⟩
  · rintro ⟨before, after, rfl, returns⟩
    obtain ⟨before, rfl⟩ := List.getLast?_eq_some_iff.mp returns
    exact ⟨before, after, by simp⟩

theorem Parts.infix_iff {data last : List UInt8} {ended : List (List UInt8)}
    (parts : Parts data ended last) :
    [carriageReturn, lineFeed] <:+: data ↔
      ∃ segment ∈ ended, segment.getLast? = some carriageReturn := by
  have none := parts.forall_feed Not
  rw [Lines.infix_iff]
  constructor
  · rintro ⟨before, after, split, returns⟩
    by_contra absent
    exact none.mpr (fun segment member found => absent ⟨segment, member, found⟩) before after split
      returns
  · rintro ⟨segment, member, returns⟩
    by_contra absent
    exact none.mp (fun before after split found => absent ⟨before, after, split, found⟩) segment
      member returns

theorem stripReturn_eq_self_iff {segment : List UInt8} :
    stripReturn segment = segment ↔ segment.getLast? ≠ some carriageReturn := by
  by_cases returns : segment.getLast? = some carriageReturn
  · obtain ⟨before, rfl⟩ := List.getLast?_eq_some_iff.mp returns
    simp [stripReturn]
  · simp [stripReturn, returns]

theorem stripReturn_append_eq_self_iff {segment : List UInt8} :
    stripReturn segment ++ [carriageReturn] = segment ↔
      segment.getLast? = some carriageReturn := by
  constructor
  · intro same
    rw [← same]
    simp
  · intro returns
    obtain ⟨before, rfl⟩ := List.getLast?_eq_some_iff.mp returns
    simp [stripReturn]

theorem not_mem_stripReturn {segment : List UInt8} (clean : lineFeed ∉ segment) :
    lineFeed ∉ stripReturn segment := by
  rw [stripReturn]
  split_ifs
  · exact fun member => clean (List.mem_of_mem_dropLast member)
  · exact clean

section Intercalate

variable {α : Type}

theorem intercalate_concat_nil (ending : List α) (pieces : List (List α)) :
    ending.intercalate (pieces ++ [[]]) =
      ending.intercalate pieces ++ if pieces = [] then [] else ending := by
  induction pieces with
  | nil => simp
  | cons piece pieces ih =>
    rcases pieces with _ | ⟨next, pieces⟩
    · simp
    · rw [List.cons_append, List.intercalate_cons_of_ne_nil (by simp), ih,
        List.intercalate_cons_of_ne_nil (List.cons_ne_nil next pieces), if_neg (List.cons_ne_nil _ _),
        if_neg (List.cons_ne_nil _ _)]
      simp only [List.append_assoc]

/-- What begins every end of a line can as well end every line before it. -/
theorem intercalate_append (first second : List α) (pieces : List (List α)) (last : List α) :
    (first ++ second).intercalate (pieces ++ [last]) =
      second.intercalate (pieces.map (· ++ first) ++ [last]) := by
  induction pieces with
  | nil => simp
  | cons piece pieces ih =>
    rw [List.cons_append, List.intercalate_cons_of_ne_nil (by simp), ih, List.map_cons,
      List.cons_append, List.intercalate_cons_of_ne_nil (by simp)]
    simp

/-- Without an empty last line, but with an end behind the last line if it has one, as many ends
are written as there are line feeds. -/
theorem Parts.intercalate_lines {data last : List UInt8} {ended : List (List UInt8)}
    (parts : Parts data ended last) (ending : List α) (line : List UInt8 → List α) :
    ending.intercalate ((dropFinalEmpty (ended ++ [last])).map line) ++
        (if data.getLast? = some lineFeed then ending else []) =
      ending.intercalate (ended.map line ++ [if last = [] then [] else line last]) := by
  have feed := parts.isEnded_iff
  by_cases empty : last = []
  · have lines : dropFinalEmpty (ended ++ [last]) = ended := by simp [dropFinalEmpty, empty]
    rw [lines, if_pos empty, intercalate_concat_nil]
    by_cases none : ended = [] <;> simp [feed, empty, none]
  · have lines : dropFinalEmpty (ended ++ [last]) = ended ++ [last] := by
      simp [dropFinalEmpty, empty]
    rw [lines, if_neg empty, if_neg (by simp [feed, empty]), List.append_nil, List.map_append]
    rfl

end Intercalate

/-- The end of a line in the whole text: a carriage return and a line feed if that occurs anywhere in
it, a line feed alone otherwise. -/
def ending (data : List UInt8) : List UInt8 :=
  if [carriageReturn, lineFeed] <:+: data then [carriageReturn, lineFeed] else [lineFeed]

/-- The text with its line ends made the same: the segments between its line feeds, without an empty
one at the end and each without one carriage return behind it, joined by the end of a line, which also
stands at the end if the text ends with a line feed. -/
def unified (data : List UInt8) : List UInt8 :=
  let segments := data.splitOn lineFeed
  let lines := if segments.getLast? = some [] then segments.dropLast else segments
  (ending data).intercalate (lines.map stripReturn) ++
    if data.getLast? = some lineFeed then ending data else []

example : unified [97, 13, 10, 98, 10, 10, 99, 13] = [97, 13, 10, 98, 13, 10, 13, 10, 99] := by decide

theorem Parts.unified {data last : List UInt8} {ended : List (List UInt8)}
    (parts : Parts data ended last) :
    Lines.unified data = (ending data).intercalate
      (ended.map stripReturn ++ [if last = [] then [] else stripReturn last]) := by
  rw [← parts.intercalate_lines, ← parts.splitOn]
  rfl

/-- Segments without line feeds are the parts of the text that they are joined to. -/
theorem Parts.intercalate_eq_iff {data last : List UInt8} {ended segments : List (List UInt8)}
    (parts : Parts data ended last) (clean : ∀ segment ∈ segments, lineFeed ∉ segment)
    (some_segment : segments ≠ []) :
    [lineFeed].intercalate segments = data ↔ segments = ended ++ [last] := by
  constructor
  · intro same
    rw [← parts.splitOn, ← same, List.splitOn_intercalate lineFeed clean some_segment]
  · rintro rfl
    rw [← parts.splitOn, List.intercalate_splitOn]

theorem Parts.unified_eq_iff {data last : List UInt8} {ended : List (List UInt8)}
    (parts : Parts data ended last) {returns : List UInt8} (clean : lineFeed ∉ returns)
    (ends : ending data = returns ++ [lineFeed]) :
    Lines.unified data = data ↔
      (∀ segment ∈ ended, stripReturn segment ++ returns = segment) ∧ stripReturn last = last := by
  have final : (if last = [] then [] else stripReturn last) = stripReturn last := by
    split_ifs with empty
    · rw [empty]
      rfl
    · rfl
  have apart : ∀ segment ∈ ended.map (fun segment => stripReturn segment ++ returns) ++
      [stripReturn last], lineFeed ∉ segment := by
    intro segment member
    rcases List.mem_append.mp member with inside | last_one
    · obtain ⟨segment, there, rfl⟩ := List.mem_map.mp inside
      have before := parts.clean segment (List.mem_append_left _ there)
      simp [not_mem_stripReturn before, clean]
    · obtain rfl := List.mem_singleton.mp last_one
      exact not_mem_stripReturn (parts.clean last (by simp))
  have each : ended.map (fun segment => stripReturn segment ++ returns) = ended ↔
      ∀ segment ∈ ended, stripReturn segment ++ returns = segment := by
    have identity := List.map_inj_left (l := ended) (g := id)
      (f := fun segment => stripReturn segment ++ returns)
    rwa [List.map_id] at identity
  have whole := parts.intercalate_eq_iff apart (by simp)
  rw [List.append_singleton_inj, each] at whole
  rw [← whole, parts.unified, final, ends, intercalate_append, List.map_map]
  rfl

/-- A text is left as it is if its line feeds all come behind carriage returns or none does, and
nothing is lost at its end. -/
theorem unified_eq_iff (data : List UInt8) :
    unified data = data ↔
      ((∀ before after, data = before ++ lineFeed :: after →
          before.getLast? = some carriageReturn) ∨
        (∀ before after, data = before ++ lineFeed :: after →
          before.getLast? ≠ some carriageReturn)) ∧
      (data.rtakeWhile (· ≠ lineFeed)).getLast? ≠ some carriageReturn := by
  obtain ⟨ended, last, parts⟩ := exists_parts data
  have all := parts.forall_feed id
  have none := parts.forall_feed Not
  simp only [id, ← ne_eq] at all none
  rw [all, none, parts.rtakeWhile]
  by_cases occurs : [carriageReturn, lineFeed] <:+: data
  · have ends : ending data = [carriageReturn] ++ [lineFeed] := if_pos occurs
    rw [parts.unified_eq_iff (by decide) ends, stripReturn_eq_self_iff]
    obtain ⟨segment, member, found⟩ := parts.infix_iff.mp occurs
    have other : ¬ ∀ segment ∈ ended, segment.getLast? ≠ some carriageReturn :=
      fun without => without segment member found
    simp only [stripReturn_append_eq_self_iff, other, or_false]
  · have ends : ending data = [] ++ [lineFeed] := if_neg occurs
    rw [parts.unified_eq_iff List.not_mem_nil ends, stripReturn_eq_self_iff]
    have without : ∀ segment ∈ ended, segment.getLast? ≠ some carriageReturn :=
      fun segment member found => occurs (parts.infix_iff.mpr ⟨segment, member, found⟩)
    have kept : ∀ segment ∈ ended, stripReturn segment ++ [] = segment := by
      intro segment member
      rw [List.append_nil, stripReturn_eq_self_iff]
      exact without segment member
    exact and_congr_left' (iff_of_true kept (.inr without))

end Lines

end TapeMachine

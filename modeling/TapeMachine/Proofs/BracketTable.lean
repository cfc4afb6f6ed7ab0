import TapeMachine.Code
import TapeMachine.Proofs.Balance
import Mathlib.Data.List.Induction

namespace TapeMachine

namespace Pairing

/-- A balanced stretch is passed without a trace in the list of open brackets. -/
theorem Balanced.foldl_next {places : List (Option Bracket)} (balanced : Balanced places)
    (position : Nat) (pending : List Nat) (pairs : List (Nat × Nat)) :
    ∃ found, places.foldl Scan.next ⟨position, pending, pairs⟩ =
      ⟨position + places.length, pending, found ++ pairs⟩ := by
  induction balanced generalizing position pending pairs with
  | nil => exact ⟨[], rfl⟩
  | plain _ ih =>
    obtain ⟨found, scan⟩ := ih (position + 1) pending pairs
    refine ⟨found, ?_⟩
    rw [List.foldl_cons, Scan.next, scan, List.length_cons, Nat.add_assoc, Nat.add_comm 1]
  | @nest inner rest _ _ ihInner ihRest =>
    obtain ⟨within, scanInner⟩ := ihInner (position + 1) (position :: pending) pairs
    obtain ⟨later, scanRest⟩ := ihRest (position + 1 + inner.length + 1) pending
      ((position, position + 1 + inner.length) :: (within ++ pairs))
    refine ⟨later ++ (position, position + 1 + inner.length) :: within, ?_⟩
    rw [List.foldl_cons, Scan.next, List.foldl_append, scanInner, List.foldl_cons, Scan.next, scanRest]
    simp only [List.length_cons, List.length_append, List.append_assoc, List.cons_append,
      Scan.mk.injEq, and_true]
    omega

theorem Scan.foldl_pairs_mem {scan : Scan} {pair : Nat × Nat} (member : pair ∈ scan.pairs)
    (places : List (Option Bracket)) : pair ∈ (places.foldl Scan.next scan).pairs := by
  induction places generalizing scan with
  | nil => exact member
  | cons place rest ih =>
    apply ih
    rcases scan with ⟨position, _ | ⟨start, pending⟩, pairs⟩ <;> rcases place with _ | _ | _ <;>
      first | exact member | exact List.mem_cons_of_mem _ member

theorem Scan.foldl_position (scan : Scan) (places : List (Option Bracket)) :
    (places.foldl Scan.next scan).position = scan.position + places.length := by
  induction places generalizing scan with
  | nil => rfl
  | cons place rest ih =>
    have one : (scan.next place).position = scan.position + 1 := by
      rcases scan with ⟨position, _ | ⟨start, pending⟩, pairs⟩ <;> rcases place with _ | _ | _ <;> rfl
    rw [List.foldl_cons, ih, one, List.length_cons]
    omega

/-- The brackets that are still open after a sequence. -/
def stillOpen (places : List (Option Bracket)) : List Nat :=
  (places.foldl Scan.next Scan.start).pending

theorem foldl_start (places : List (Option Bracket)) :
    ∃ pairs, places.foldl Scan.next Scan.start = ⟨places.length, stillOpen places, pairs⟩ := by
  refine ⟨(places.foldl Scan.next Scan.start).pairs, ?_⟩
  have atEnd := Scan.foldl_position Scan.start places
  rw [Scan.start, Nat.zero_add] at atEnd
  rw [← atEnd]
  rfl

theorem stillOpen_append_balanced {more : List (Option Bracket)} (balanced : Balanced more)
    (places : List (Option Bracket)) : stillOpen (places ++ more) = stillOpen places := by
  obtain ⟨pairs, scan⟩ := foldl_start places
  obtain ⟨found, scanMore⟩ := balanced.foldl_next places.length (stillOpen places) pairs
  rw [stillOpen, List.foldl_append, scan, scanMore]

theorem stillOpen_opening (places : List (Option Bracket)) :
    stillOpen (places ++ [some .opening]) = places.length :: stillOpen places := by
  obtain ⟨pairs, scan⟩ := foldl_start places
  rw [stillOpen, List.foldl_append, scan]
  rfl

theorem stillOpen_closing (places : List (Option Bracket)) :
    stillOpen (places ++ [some .closing]) = (stillOpen places).tail := by
  obtain ⟨pairs, scan⟩ := foldl_start places
  rw [stillOpen, List.foldl_append, scan]
  cases stillOpen places <;> rfl

/-- An opening bracket with a balanced stretch behind it is the latest open bracket. -/
theorem stillOpen_opening_balanced (before : List (Option Bracket))
    {inner : List (Option Bracket)} (balanced : Balanced inner) :
    stillOpen (before ++ some .opening :: inner) = before.length :: stillOpen before := by
  rw [List.append_cons, stillOpen_append_balanced balanced, stillOpen_opening]

theorem Match.mem_pairs {places : List (Option Bracket)} {start finish : Nat}
    (pair : Match places start finish) : (start, finish) ∈ pairs places := by
  obtain ⟨before, inner, after, rfl, balanced, rfl, rfl⟩ := pair
  obtain ⟨found, scan⟩ := foldl_start (before ++ some .opening :: inner)
  have split : before ++ some .opening :: (inner ++ some .closing :: after) =
      (before ++ some .opening :: inner) ++ some .closing :: after := by simp
  rw [stillOpen_opening_balanced before balanced] at scan
  rw [pairs, split, List.foldl_append, scan, List.foldl_cons, Scan.next]
  exact Scan.foldl_pairs_mem (by simp [Nat.add_assoc]) after

/-- A sequence taken apart at its open brackets: at first balanced stretches with stray closing
brackets between them, then balanced stretches with an open bracket before each. -/
inductive Shape : List (Option Bracket) → List Nat → Prop
  | balanced {inner : List (Option Bracket)} : Balanced inner → Shape inner []
  | stray {before inner : List (Option Bracket)} : Shape before [] → Balanced inner →
      Shape (before ++ some .closing :: inner) []
  | opened {before inner : List (Option Bracket)} {pending : List Nat} : Shape before pending →
      Balanced inner → Shape (before ++ some .opening :: inner) (before.length :: pending)

theorem Shape.append_balanced {places more : List (Option Bracket)} {pending : List Nat}
    (shape : Shape places pending) (balanced : Balanced more) : Shape (places ++ more) pending := by
  cases shape with
  | balanced inner => exact .balanced (inner.append balanced)
  | stray before inner =>
    rw [List.append_assoc, List.cons_append]
    exact .stray before (inner.append balanced)
  | opened before inner =>
    rw [List.append_assoc, List.cons_append]
    exact .opened before (inner.append balanced)

theorem Shape.close {places : List (Option Bracket)} {start : Nat} {pending : List Nat}
    (shape : Shape places (start :: pending)) :
    Shape (places ++ [some .closing]) pending ∧
      Match (places ++ [some .closing]) start places.length := by
  cases shape with
  | @opened before inner _ outer balanced =>
    have nested : Balanced (some .opening :: (inner ++ [some .closing])) := .nest balanced .nil
    refine ⟨?_, before, inner, [], by simp, balanced, rfl, ?_⟩
    · simpa only [List.append_assoc, List.cons_append] using outer.append_balanced nested
    · simp only [List.length_append, List.length_cons]
      omega

/-- What holds of the pass at every moment: it knows the open brackets, and it has found only
pairs. -/
structure Scan.Sound (places : List (Option Bracket)) (scan : Scan) : Prop where
  position : scan.position = places.length
  shape : Shape places scan.pending
  matched : ∀ pair ∈ scan.pairs, Match places pair.1 pair.2

theorem Scan.Sound.next {places : List (Option Bracket)} {scan : Scan}
    (sound : scan.Sound places) (place : Option Bracket) :
    (scan.next place).Sound (places ++ [place]) := by
  obtain ⟨position, pending, pairs⟩ := scan
  obtain ⟨atEnd, shape, matched⟩ := sound
  dsimp only at atEnd shape matched
  have kept : ∀ pair ∈ pairs, Match (places ++ [place]) pair.1 pair.2 :=
    fun pair member => (matched pair member).append [place]
  have length : position + 1 = (places ++ [place]).length := by simp [atEnd]
  rcases place with _ | _ | _
  · exact ⟨length, shape.append_balanced (.plain .nil), kept⟩
  · exact ⟨length, by simpa only [Scan.next, atEnd] using shape.opened .nil, kept⟩
  · rcases pending with _ | ⟨start, pending⟩
    · exact ⟨length, .stray shape .nil, kept⟩
    · refine ⟨length, shape.close.1, ?_⟩
      intro pair member
      rcases List.mem_cons.mp member with rfl | old
      · simpa only [atEnd] using shape.close.2
      · exact kept pair old

theorem Scan.sound (places : List (Option Bracket)) :
    (places.foldl Scan.next Scan.start).Sound places := by
  induction places using List.reverseRecOn with
  | nil => exact ⟨rfl, .balanced .nil, by simp [Scan.start]⟩
  | append_singleton places place ih =>
    rw [List.foldl_append]
    exact ih.next place

/-- The brackets that are open after a sequence can be read off its shape. -/
theorem Shape.stillOpen_eq {places : List (Option Bracket)} {pending : List Nat}
    (shape : Shape places pending) : stillOpen places = pending := by
  induction shape with
  | balanced inner => exact stillOpen_append_balanced inner []
  | stray _ balanced ih =>
    rw [List.append_cons, stillOpen_append_balanced balanced, stillOpen_closing, ih, List.tail_nil]
  | @opened before _ _ _ balanced ih => rw [stillOpen_opening_balanced before balanced, ih]

theorem mem_pairs_iff {places : List (Option Bracket)} {start finish : Nat} :
    (start, finish) ∈ pairs places ↔ Match places start finish :=
  ⟨(Scan.sound places).matched _, Match.mem_pairs⟩

theorem partner?_enter {table : Array (Option Nat)} {pair : Nat × Nat}
    (inside : pair.1 < table.size ∧ pair.2 < table.size) (position : Nat) :
    partner? (enter table pair) position =
      if position = pair.2 then some pair.1
      else if position = pair.1 then some pair.2 else partner? table position := by
  simp only [partner?, enter]
  by_cases second : position = pair.2
  · subst second
    simp [inside.2]
  by_cases first : position = pair.1
  · subst first
    simp [inside.1, second, Ne.symm second]
  · simp [first, second, Ne.symm first, Ne.symm second]

/-- Entering pairs one after the other, when no position has two partners among them. -/
theorem partner?_foldl_enter (places : List (Option Bracket)) {found : List (Nat × Nat)}
    (matched : ∀ pair ∈ found, Match places pair.1 pair.2) {table : Array (Option Nat)}
    (size : table.size = places.length) {position partner : Nat} :
    partner? (found.foldl enter table) position = some partner ↔
      ((position, partner) ∈ found ∨ (partner, position) ∈ found) ∨
        (∀ other, (position, other) ∉ found ∧ (other, position) ∉ found) ∧
          partner? table position = some partner := by
  induction found generalizing table with
  | nil => simp
  | cons pair found ih =>
    obtain ⟨start, finish⟩ := pair
    have here : Match places start finish := matched (start, finish) List.mem_cons_self
    have later : ∀ pair ∈ found, Match places pair.1 pair.2 :=
      fun pair member => matched pair (List.mem_cons_of_mem _ member)
    have inside : start < table.size ∧ finish < table.size := by
      have := here.lt
      have := here.lt_length
      omega
    have agree : ∀ {place other}, ((place, other) ∈ found ∨ (other, place) ∈ found) →
        (place = start → other = finish) ∧ (place = finish → other = start) := by
      intro place other linked
      have pair : Partners places place other := linked.imp (later _) (later _)
      exact ⟨fun same => pair.unique (same ▸ .inl here), fun same => pair.unique (same ▸ .inr here)⟩
    have apart := Nat.ne_of_lt here.lt
    rw [List.foldl_cons, ih later (by simp [enter, size]), partner?_enter inside]
    simp only [List.mem_cons, Prod.mk.injEq]
    grind

/-- The table names the partner of every bracket that has one, and nothing else. -/
theorem partner?_table {places : List (Option Bracket)} {position partner : Nat} :
    partner? (table places) position = some partner ↔ Partners places position partner := by
  have blank : partner? (Array.replicate places.length none) position = none := by
    simp only [partner?, Array.getElem?_replicate]
    split_ifs <;> rfl
  rw [table, partner?_foldl_enter places (fun _ => mem_pairs_iff.mp) (by simp), blank,
    mem_pairs_iff, mem_pairs_iff]
  simp [Partners]

/-- Every bracket has a partner. -/
def Complete (places : List (Option Bracket)) : Prop :=
  ∀ position bracket, places[position]? = some (some bracket) →
    ∃ partner, Partners places position partner

theorem Shape.stray_alone {before inner : List (Option Bracket)} (shape : Shape before [])
    (partner : Nat) : ¬ Partners (before ++ some .closing :: inner) before.length partner := by
  rintro (pair | ⟨before', inner', after', split, balanced, atStart, atFinish⟩)
  · have clash := pair.opening
    simp at clash
  · have regroup : before' ++ some .opening :: (inner' ++ some .closing :: after') =
        (before' ++ some .opening :: inner') ++ some .closing :: after' := by simp
    have heads := (List.append_inj (split.trans regroup)
      (by simp only [List.length_append, List.length_cons]; omega)).1
    have clash := shape.stillOpen_eq
    rw [heads, stillOpen_opening_balanced before' balanced] at clash
    simp at clash

theorem Balanced.opening_alone {before inner : List (Option Bracket)} (balanced : Balanced inner)
    (partner : Nat) : ¬ Partners (before ++ some .opening :: inner) before.length partner := by
  rintro (⟨before', inner', after', split, balanced', atStart, -⟩ | pair)
  · have tails := (List.append_inj split atStart.symm).2
    exact balanced'.no_early_closing ((List.cons_eq_cons.mp tails).2 ▸ balanced)
  · have clash := pair.closing
    simp at clash

theorem Complete.balanced {places : List (Option Bracket)} (complete : Complete places) :
    Balanced places := by
  have shape := (Scan.sound places).shape
  generalize (places.foldl Scan.next Scan.start).pending = pending at shape
  cases shape with
  | balanced balanced => exact balanced
  | @stray before inner shape balanced =>
    obtain ⟨partner, pair⟩ := complete before.length .closing (by simp)
    exact absurd pair (shape.stray_alone partner)
  | @opened before inner pending shape balanced =>
    obtain ⟨partner, pair⟩ := complete before.length .opening (by simp)
    exact absurd pair (balanced.opening_alone partner)

theorem Balanced.complete {places : List (Option Bracket)} (balanced : Balanced places) :
    Complete places := by
  induction balanced with
  | nil => simp [Complete]
  | @plain rest _ ih =>
    intro position bracket at?
    rcases position with _ | position
    · simp at at?
    · obtain ⟨partner, pair⟩ := ih position bracket (by simpa using at?)
      exact ⟨_, Nat.add_comm 1 position ▸ pair.prepend [none]⟩
  | @nest inner rest balanced _ ihInner ihRest =>
    intro position bracket at?
    have outer : Match (some .opening :: (inner ++ some .closing :: rest)) 0 (inner.length + 1) :=
      ⟨[], inner, rest, rfl, balanced, rfl, by omega⟩
    by_cases first : position = 0
    · subst first
      exact ⟨_, .inl outer⟩
    by_cases last : position = inner.length + 1
    · subst last
      exact ⟨_, .inr outer⟩
    by_cases within : position < inner.length + 1
    · obtain ⟨place, rfl⟩ : ∃ place, position = 1 + place := ⟨position - 1, by omega⟩
      rw [Nat.add_comm, List.getElem?_cons_succ, List.getElem?_append_left (by omega)] at at?
      obtain ⟨partner, pair⟩ := ihInner place bracket at?
      exact ⟨_, (pair.append (some .closing :: rest)).prepend [some .opening]⟩
    · obtain ⟨place, rfl⟩ : ∃ place, position = inner.length + 2 + place :=
        ⟨position - (inner.length + 2), by omega⟩
      have regroup : some .opening :: (inner ++ some .closing :: rest) =
          (some .opening :: (inner ++ [some .closing])) ++ rest := by simp
      have length : (some Bracket.opening :: (inner ++ [some .closing])).length = inner.length + 2 := by
        simp
      rw [regroup, List.getElem?_append_right (by omega), length, Nat.add_sub_cancel_left] at at?
      obtain ⟨partner, pair⟩ := ihRest place bracket at?
      rw [regroup, ← length]
      exact ⟨_, pair.prepend _⟩

end Pairing

end TapeMachine

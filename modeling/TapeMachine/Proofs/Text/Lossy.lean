import Mathlib.Data.List.Induction
import TapeMachine.Proofs.Text.Encoding

namespace TapeMachine.Utf8

/-- Some characters begin like this, but none is complete yet. -/
def Incomplete (bytes : List UInt8) : Prop :=
  bytes ≠ [] ∧ ∃ c more, more ≠ [] ∧ bytesOf c = bytes ++ more

/-- What a decoder waits with: the beginning of a character, or two of the three bytes that encode a
surrogate. -/
def Unfinished (bytes : List UInt8) : Prop :=
  Incomplete bytes ∨ ∃ byte : UInt8, 0xA0 ≤ byte ∧ byte ≤ 0xBF ∧ bytes = [0xED, byte]

/-- Bytes that do not begin with a character begin with a part that is lost: the longest beginning of a
character, or a single byte. -/
structure MaximalSubpart (part bytes : List UInt8) : Prop where
  starts : part <+: bytes
  invalid : ∀ c, ¬bytesOf c <+: bytes
  begun : part.length = 1 ∨ Incomplete part
  longest : ∀ other, other <+: bytes → Incomplete other → other.length ≤ part.length

/-- The first character of a text, which is a replacement if none stands there. -/
def Yields (bytes : List UInt8) (c : Char) (rest : List UInt8) : Prop :=
  bytes = bytesOf c ++ rest ∨
    c = replacement ∧ ∃ part, bytes = part ++ rest ∧ MaximalSubpart part bytes

/-- A text is read character by character up to some place. -/
inductive Reads : List UInt8 → List Char → List UInt8 → Prop
  | start {bytes : List UInt8} : Reads bytes [] bytes
  | next {bytes rest left : List UInt8} {c : Char} {text : List Char} :
      Yields bytes c rest → Reads rest text left → Reads bytes (c :: text) left

variable {bytes rest left pending part : List UInt8} {c other : Char} {text more : List Char}

theorem Incomplete.prefix_of (incomplete : Incomplete bytes) : ∃ c, bytes <+: bytesOf c := by
  obtain ⟨-, c, more, -, whole⟩ := incomplete
  exact ⟨c, more, whole.symm⟩

theorem Incomplete.no_char (incomplete : Incomplete bytes) (c : Char) : ¬bytesOf c <+: bytes := by
  intro starts
  obtain ⟨-, other, more, some_more, whole⟩ := incomplete
  have longer : bytes <+: bytesOf other := ⟨more, whole.symm⟩
  obtain rfl := bytesOf_unique (starts.trans longer) (List.prefix_refl _)
  have length := congrArg List.length whole
  rw [List.length_append] at length
  have short := starts.length_le
  exact some_more (List.length_eq_zero_iff.mp (by omega))

/-- The first character can be told. Of two parts that are lost neither is the longer one. -/
theorem Yields.unique (yields : Yields bytes c rest) (others : Yields bytes other left) :
    c = other ∧ rest = left := by
  rcases yields with here | ⟨rfl, part, here, maximal⟩ <;>
    rcases others with there | ⟨rfl, lost, there, maximal_lost⟩
  · obtain rfl := bytesOf_unique ⟨rest, here.symm⟩ ⟨left, there.symm⟩
    exact ⟨rfl, List.append_cancel_left (here.symm.trans there)⟩
  · exact absurd ⟨rest, here.symm⟩ (maximal_lost.invalid c)
  · exact absurd ⟨left, there.symm⟩ (maximal.invalid other)
  · have no_longer {one two : List UInt8} (first : MaximalSubpart one bytes)
        (second : MaximalSubpart two bytes) : one.length ≤ two.length := by
      rcases first.begun with single | incomplete
      · rcases second.begun with also_single | also_incomplete
        · omega
        · exact single ▸ List.length_pos_iff.mpr also_incomplete.1
      · exact second.longest one first.starts incomplete
    have length : part.length = lost.length :=
      Nat.le_antisymm (no_longer maximal maximal_lost) (no_longer maximal_lost maximal)
    exact ⟨rfl, (List.append_inj (here.symm.trans there) length).2⟩

theorem Yields.shorter (yields : Yields bytes c rest) : rest.length < bytes.length := by
  rcases yields with here | ⟨-, part, here, maximal⟩
  · have some_byte : 0 < (bytesOf c).length := List.length_pos_iff.mpr (bytesOf_ne_nil c)
    rw [here, List.length_append]
    omega
  · have some_byte : 0 < part.length := by
      rcases maximal.begun with single | incomplete
      · omega
      · exact List.length_pos_iff.mpr incomplete.1
    rw [here, List.length_append]
    omega

theorem Reads.suffix (reads : Reads bytes text rest) : rest <:+ bytes := by
  induction reads with
  | start => exact List.suffix_refl _
  | next yields _ ih =>
    rcases yields with here | ⟨-, part, here, -⟩ <;>
      exact ih.trans (here ▸ List.suffix_append _ _)

theorem Reads.append {text : List Char} (first : Reads bytes text rest)
    (second : Reads rest more left) : Reads bytes (text ++ more) left := by
  induction first with
  | start => exact second
  | next yields _ ih => exact .next yields (ih second)

/-- A text is read in one way only. -/
theorem Reads.unique (reads : Reads bytes text left) (others : Reads bytes more left) :
    text = more := by
  induction reads generalizing more with
  | start =>
    cases others with
    | start => rfl
    | next yields others => exact absurd others.suffix.length_le (Nat.not_le_of_lt yields.shorter)
  | next yields reads ih =>
    cases others with
    | start => exact absurd reads.suffix.length_le (Nat.not_le_of_lt yields.shorter)
    | next others_yield others =>
      obtain ⟨rfl, rfl⟩ := yields.unique others_yield
      rw [ih others]

/-- A beginning is lost if the byte after it does not go on with it. -/
theorem Incomplete.maximal (incomplete : Incomplete pending)
    (ends : ∀ byte ∈ rest.head?, ∀ c, ¬pending ++ [byte] <+: bytesOf c) :
    MaximalSubpart pending (pending ++ rest) := by
  have no_longer {others : List UInt8} {c : Char} (starts : others <+: pending ++ rest)
      (begins : others <+: bytesOf c) : others <+: pending := by
    rcases List.prefix_or_prefix_of_prefix starts (List.prefix_append pending rest) with
      within | ⟨further, rfl⟩
    · exact within
    rw [List.prefix_append_right_inj] at starts
    cases further with
    | nil => exact ⟨[], by simp⟩
    | cons byte after =>
      obtain ⟨last, rfl⟩ := starts
      refine absurd (List.IsPrefix.trans ?_ begins) (ends byte rfl c)
      exact ⟨after, by simp⟩
  refine ⟨List.prefix_append pending rest, ?_, .inr incomplete, ?_⟩
  · intro c starts
    exact incomplete.no_char c (no_longer starts (List.prefix_refl _))
  · intro other starts incomplete_other
    obtain ⟨c, begins⟩ := incomplete_other.prefix_of
    exact (no_longer starts begins).length_le

theorem maximal_alone {byte : UInt8} (never : ∀ c, ¬[byte] <+: bytesOf c) :
    MaximalSubpart [byte] (byte :: rest) := by
  have never_starts {others : List UInt8} {c : Char} (some_byte : others ≠ [])
      (starts : others <+: byte :: rest) : ¬others <+: bytesOf c := by
    obtain ⟨first, after, rfl⟩ := List.exists_cons_of_ne_nil some_byte
    obtain ⟨rfl, -⟩ := List.cons_prefix_cons.mp starts
    exact fun begins => never c (List.IsPrefix.trans ⟨after, rfl⟩ begins)
  refine ⟨⟨rest, rfl⟩, ?_, .inl rfl, ?_⟩
  · intro c starts
    exact never_starts (bytesOf_ne_nil c) starts (List.prefix_refl _)
  · intro other starts incomplete
    obtain ⟨c, begins⟩ := incomplete.prefix_of
    exact absurd begins (never_starts incomplete.1 starts)

theorem Reads.one (yields : Yields bytes c rest) : Reads bytes [c] rest := .next yields .start

theorem Reads.lost (maximal : MaximalSubpart part (part ++ rest)) :
    Reads (part ++ rest) [replacement] rest :=
  .one (.inr ⟨rfl, part, rfl, maximal⟩)

theorem Opens.incomplete {missing value : Nat} {low high : UInt8}
    (opens : Opens missing value low high pending) : Incomplete pending := by
  obtain ⟨c, more, whole⟩ := opens.some_char
  have length := opens.length c ⟨more, whole⟩
  have open_ended := opens.open_ended
  rw [← whole, List.length_append] at length
  refine ⟨opens.begun, c, more, ?_, whole.symm⟩
  rintro rfl
  rw [List.length_nil] at length
  omega

theorem opens_ED : Opens 2 0xD 0x80 0x9F [0xED] := .of_row (.before_surrogates rfl)

/-- What a decoder holds back. -/
inductive Holds : Decoder → List UInt8 → Prop
  | ready : Holds .ready []
  | unfinished {missing value : Nat} {low high : UInt8} {pending : List UInt8} :
      Opens missing value low high pending → Holds (.unfinished missing value low high) pending
  | afterED : Holds .afterED [0xED]
  | surrogate {byte : UInt8} : 0xA0 ≤ byte → byte ≤ 0xBF → Holds .surrogate [0xED, byte]

/-- The bytes have been read as the text, up to what the decoder holds back. -/
def Takes (bytes : List UInt8) (result : List Char × Decoder) : Prop :=
  ∃ pending, Holds result.2 pending ∧ ∀ rest, Reads (bytes ++ rest) result.1 (pending ++ rest)

theorem Takes.after {result : List Char × Decoder}
    (before : ∀ rest, Reads (bytes ++ rest) text (pending ++ rest))
    (takes : Takes pending result) : Takes bytes (text ++ result.1, result.2) := by
  obtain ⟨held, holds, reads⟩ := takes
  exact ⟨held, holds, fun rest => (before rest).append (reads rest)⟩

theorem Takes.one (whole : bytesOf c = bytes) : Takes bytes ([c], .ready) :=
  ⟨[], .ready, fun _ => .one (.inl (whole ▸ rfl))⟩

namespace Decoder

variable {decoder : Decoder}

theorem first_takes (byte : UInt8) : Takes [byte] (first byte) := by
  have replaced (outside : 0x80 ≤ byte.toNat ∧ byte.toNat < 0xC2 ∨ 0xF4 < byte.toNat) :
      Takes [byte] ([replacement], .ready) :=
    ⟨[], .ready, fun _ => .lost (maximal_alone (not_lead outside))⟩
  have begun {missing value : Nat} {low high : UInt8}
      (row : Row byte.toNat missing value low high) :
      Takes [byte] ([], .unfinished missing value low high) :=
    ⟨[byte], .unfinished (.of_row row), fun _ => .start⟩
  simp only [first]
  split
  · rename_i ascii
    exact .one (bytesOf_ascii ascii)
  split
  · exact replaced (by omega)
  split
  · exact begun (.two (by omega) (by omega))
  split
  · exact begun (.three_least (by omega))
  split
  · rename_i surrogates
    obtain rfl : byte = 0xED := UInt8.toNat_inj.mp surrogates
    exact ⟨[0xED], .afterED, fun _ => .start⟩
  split
  · exact begun (.three (by omega) (by omega) (by omega))
  split
  · exact begun (.four_least (by omega))
  split
  · exact begun (.four (by omega) (by omega))
  split
  · exact begun (.four_most (by omega))
  · exact replaced (by omega)

/-- A byte that does not go on with a character begins anew. -/
theorem restart_takes {missing value : Nat} {low high byte : UInt8}
    (opens : Opens missing value low high pending) (outside : ¬(low ≤ byte ∧ byte ≤ high)) :
    Takes (pending ++ [byte]) (restart 1 byte) := by
  have before (rest : List UInt8) :
      Reads (pending ++ [byte] ++ rest) [replacement] ([byte] ++ rest) := by
    rw [List.append_assoc]
    refine .lost (opens.incomplete.maximal ?_)
    intro other next c
    obtain rfl : byte = other := Option.some.inj next
    exact opens.ends outside c
  exact .after before (first_takes byte)

theorem open_takes {missing value : Nat} {low high byte : UInt8}
    (opens : Opens missing value low high pending) :
    Takes (pending ++ [byte]) ((unfinished missing value low high).feed byte) := by
  simp only [feed]
  split
  · rename_i within
    obtain ⟨least, most⟩ := within
    split
    · rename_i final
      exact .one (opens.last least most final)
    · rename_i further
      exact ⟨pending ++ [byte], .unfinished (opens.next least most further), fun _ => .start⟩
  · rename_i outside
    exact restart_takes opens outside

/-- The first two bytes of a surrogate are lost one by one. -/
theorem surrogate_reads {byte : UInt8} (least : 0xA0 ≤ byte) (most : byte ≤ 0xBF)
    (rest : List UInt8) : Reads (0xED :: byte :: rest) [replacement, replacement] rest := by
  rw [UInt8.le_iff_toNat_le] at least most
  simp only [UInt8.reduceToNat] at least most
  have alone : Reads (byte :: rest) [replacement] rest :=
    .lost (maximal_alone (not_lead (.inl (by omega))))
  have before : MaximalSubpart [0xED] ([0xED] ++ byte :: rest) := by
    refine opens_ED.incomplete.maximal ?_
    intro other next c
    obtain rfl : byte = other := Option.some.inj next
    refine opens_ED.ends ?_ c
    rw [UInt8.le_iff_toNat_le, UInt8.le_iff_toNat_le]
    simp only [UInt8.reduceToNat]
    omega
  exact Reads.append (.lost before) alone

/-- One byte more. -/
theorem feed_takes (holds : Holds decoder pending) (byte : UInt8) :
    Takes (pending ++ [byte]) (decoder.feed byte) := by
  cases holds with
  | ready => exact first_takes byte
  | unfinished opens => exact open_takes opens
  | afterED =>
    simp only [feed]
    split
    · rename_i within
      exact ⟨_, .unfinished (opens_ED.next within.1 within.2 (by decide)), fun _ => .start⟩
    split
    · rename_i surrogate
      exact ⟨_, .surrogate surrogate.1 surrogate.2, fun _ => .start⟩
    · rename_i outside _
      exact restart_takes opens_ED outside
  | @surrogate second least most =>
    have before (rest : List UInt8) :
        Reads ([0xED, second] ++ [byte] ++ rest) [replacement, replacement] ([byte] ++ rest) :=
      surrogate_reads least most (byte :: rest)
    exact .after before (first_takes byte)

/-- What is held back at the end is lost. -/
theorem finish_reads (holds : Holds decoder pending) : Reads pending decoder.finish [] := by
  have ended {pending : List UInt8} (incomplete : Incomplete pending) :
      Reads pending [replacement] [] := by
    have lost : Reads (pending ++ []) [replacement] [] :=
      .lost (incomplete.maximal fun _ next => nomatch next)
    rwa [List.append_nil] at lost
  cases holds with
  | ready => exact .start
  | unfinished opens => exact ended opens.incomplete
  | afterED => exact ended opens_ED.incomplete
  | surrogate least most => exact surrogate_reads least most []

/-- Takes the bytes of a piece one after the other. -/
def run (decoder : Decoder) : List UInt8 → List Char × Decoder
  | [] => ([], decoder)
  | byte :: bytes =>
    let (chars, decoder) := decoder.feed byte
    let (text, decoder) := run decoder bytes
    (chars ++ text, decoder)

theorem run_append (piece others : List UInt8) :
    decoder.run (piece ++ others) =
      ((decoder.run piece).1 ++ ((decoder.run piece).2.run others).1,
        ((decoder.run piece).2.run others).2) := by
  induction piece generalizing decoder with
  | nil => rfl
  | cons byte piece ih => simp only [List.cons_append, run, ih, List.append_assoc]

theorem run_takes (holds : Holds decoder pending) (piece : List UInt8) :
    Takes (pending ++ piece) (decoder.run piece) := by
  induction piece generalizing decoder pending with
  | nil => exact ⟨pending, holds, fun rest => by rw [List.append_nil]; exact .start⟩
  | cons byte piece ih =>
    obtain ⟨held, holds, reads⟩ := feed_takes holds byte
    refine Takes.after (fun rest => ?_) (ih holds)
    have first := reads (piece ++ rest)
    rw [← List.append_assoc, ← List.append_assoc, List.append_assoc pending [byte]] at first
    exact first

theorem toList_foldl_push (chars : List Char) (text : String) :
    (chars.foldl String.push text).toList = text.toList ++ chars := by
  induction chars generalizing text with
  | nil => simp
  | cons c chars ih => simp [ih]

theorem decode_eq_run (piece : List UInt8) :
    (decoder.decode piece).1.toList = (decoder.run piece).1 ∧
      (decoder.decode piece).2 = (decoder.run piece).2 := by
  induction piece using List.reverseRecOn with
  | nil => exact ⟨rfl, rfl⟩
  | append_singleton piece byte ih =>
    obtain ⟨chars, later⟩ := ih
    have last : decoder.decode (piece ++ [byte]) =
        (((decoder.decode piece).2.feed byte).1.foldl String.push (decoder.decode piece).1,
          ((decoder.decode piece).2.feed byte).2) := by
      rw [decode, List.foldl_append]
      rfl
    rw [last, toList_foldl_push, run_append, chars, later]
    simp only [run, List.append_nil, and_self]

end Decoder

/-- The lossy reading replaces each maximal subpart of what is no text by one character. -/
theorem decode_reads (bytes : List UInt8) : Reads bytes (decode bytes).toList [] := by
  obtain ⟨chars, later⟩ := @Decoder.decode_eq_run .ready bytes
  obtain ⟨pending, holds, reads⟩ := Decoder.run_takes .ready bytes
  have first := reads []
  rw [List.append_nil, List.append_nil] at first
  have whole := first.append (Decoder.finish_reads holds)
  rw [← chars, ← later] at whole
  rwa [decode, Decoder.toList_foldl_push]

theorem reads_iff : Reads bytes text [] ↔ text = (decode bytes).toList := by
  constructor
  · intro reads
    exact reads.unique (decode_reads bytes)
  · rintro rfl
    exact decode_reads bytes

/-- The unfinished end of some bytes; there is at most one. -/
structure OpenEnd (pending bytes : List UInt8) : Prop where
  ends : pending <:+ bytes
  unfinished : pending = [] ∨ Unfinished pending
  whole : ∀ others, others <:+ bytes → Unfinished others → others = pending

theorem Unfinished.shape (unfinished : Unfinished bytes) :
    ∃ lead after, bytes = lead :: after ∧ 0xC2 ≤ lead.toNat ∧
      ∀ byte ∈ after, byte.toNat < 0xC0 := by
  rcases unfinished with ⟨some_byte, c, more, some_more, whole⟩ | ⟨byte, -, most, rfl⟩
  · obtain ⟨lead, after, rfl⟩ := List.exists_cons_of_ne_nil some_byte
    have count : 0 < more.length := List.length_pos_iff.mpr some_more
    refine ⟨lead, after, rfl, ?_, ?_⟩
    · obtain ⟨rest, bytes, leads⟩ := bytesOf_of_lead ⟨after ++ more, whole.symm⟩
      rw [whole, List.cons_append, List.cons.injEq] at bytes
      rw [← bytes.2, List.length_append] at leads
      unfold Leads at leads
      omega
    · intro byte within
      obtain ⟨before, further, rfl⟩ := List.append_of_mem within
      have bits := @bytesOf_continuation c (lead :: before) (further ++ more) byte
        (by simpa using whole) (List.cons_ne_nil _ _)
      omega
  · refine ⟨0xED, [byte], rfl, by decide, ?_⟩
    intro other only
    rw [List.mem_singleton.mp only]
    rw [UInt8.le_iff_toNat_le] at most
    exact Nat.lt_succ_of_le most

/-- No unfinished end is part of another one. -/
theorem Unfinished.unique {others : List UInt8} (unfinished : Unfinished bytes)
    (others_unfinished : Unfinished others) (shorter : others <:+ bytes) : others = bytes := by
  obtain ⟨lead, after, rfl, -, low⟩ := unfinished.shape
  obtain ⟨other, further, rfl, high, -⟩ := others_unfinished.shape
  rcases List.suffix_cons_iff.mp shorter with same | inside
  · exact same
  · have small := low other (inside.subset List.mem_cons_self)
    omega

theorem Holds.open_ended {decoder : Decoder} (holds : Holds decoder pending) :
    pending = [] ∧ decoder = .ready ∨ Unfinished pending ∧ decoder ≠ .ready := by
  cases holds with
  | ready => exact .inl ⟨rfl, rfl⟩
  | unfinished opens => exact .inr ⟨.inl opens.incomplete, nofun⟩
  | afterED => exact .inr ⟨.inl opens_ED.incomplete, nofun⟩
  | surrogate least most => exact .inr ⟨.inr ⟨_, least, most, rfl⟩, nofun⟩

namespace Decoder

variable {decoder : Decoder}

/-- The first byte of a longer character begins anew wherever it stands. -/
theorem feed_lead (holds : Holds decoder pending) {lead : UInt8} (high : 0xC2 ≤ lead.toNat) :
    (decoder.feed lead).2 = (first lead).2 := by
  have above {most : UInt8} (bound : most.toNat ≤ 0xBF) : ¬lead ≤ most := by
    rw [UInt8.le_iff_toNat_le]
    omega
  cases holds with
  | ready => rfl
  | unfinished opens => simp only [feed, above opens.bounds.2.2, and_false, if_false, restart]
  | afterED =>
    have first_bound : ¬lead ≤ 0x9F := above (by decide)
    have second_bound : ¬lead ≤ 0xBF := above (by decide)
    simp only [feed, first_bound, second_bound, and_false, if_false, restart]
  | surrogate => rfl

theorem run_lead (holds : Holds decoder pending) {lead : UInt8} (high : 0xC2 ≤ lead.toNat)
    (after : List UInt8) : (decoder.run (lead :: after)).2 = (ready.run (lead :: after)).2 := by
  simp only [run, feed_lead holds high, feed_lead .ready high]

/-- After an unfinished end the decoder waits. -/
theorem run_unfinished (unfinished : Unfinished bytes) : (ready.run bytes).2 ≠ .ready := by
  rcases unfinished with incomplete | ⟨byte, least, most, rfl⟩
  · obtain ⟨some_byte, c, more, some_more, whole⟩ := incomplete
    obtain ⟨held, holds, reads⟩ := run_takes .ready bytes
    have first := reads more
    rw [List.nil_append, ← whole] at first
    have same : held = bytes := by
      generalize ending : held ++ more = last at first
      generalize (ready.run bytes).1 = text at first
      cases first with
      | start =>
        rw [whole] at ending
        exact List.append_cancel_right ending
      | next yields rest_reads =>
        obtain ⟨-, rfl⟩ := yields.unique (.inl (List.append_nil _).symm)
        have nothing := List.suffix_nil.mp rest_reads.suffix
        rw [nothing] at ending
        exact absurd (List.append_eq_nil_iff.mp ending).2 some_more
    rcases holds.open_ended with ⟨empty, -⟩ | ⟨-, waits⟩
    · exact absurd (same.symm.trans empty) some_byte
    · exact waits
  · have beyond : ¬byte ≤ 0x9F := by
      rw [UInt8.le_iff_toNat_le] at least ⊢
      simp only [UInt8.reduceToNat] at least ⊢
      omega
    have second : (afterED.feed byte).2 = .surrogate := by
      simp only [feed, beyond, least, most, and_false, and_self, if_false, if_true]
    have last : (ready.run [0xED, byte]).2 = (afterED.feed byte).2 := rfl
    rw [last, second]
    nofun

/-- What a decoder has not read of the bytes is their unfinished end. -/
theorem run_open_end (bytes : List UInt8) :
    ∃ pending, Holds (ready.run bytes).2 pending ∧ Reads bytes (ready.run bytes).1 pending ∧
      OpenEnd pending bytes := by
  obtain ⟨pending, holds, reads⟩ := run_takes .ready bytes
  have first := reads []
  rw [List.append_nil, List.append_nil, List.nil_append] at first
  refine ⟨pending, holds, first, first.suffix, ?_, ?_⟩
  · exact holds.open_ended.imp And.left And.left
  intro others ends unfinished
  have waits : (ready.run bytes).2 ≠ .ready := by
    obtain ⟨front, rfl⟩ := ends
    obtain ⟨held, held_holds, -⟩ := run_takes .ready front
    obtain ⟨lead, after, rfl, high, -⟩ := unfinished.shape
    rw [run_append]
    exact run_lead held_holds high after ▸ run_unfinished unfinished
  rcases holds.open_ended with ⟨-, done⟩ | ⟨pending_unfinished, -⟩
  · exact absurd done waits
  rcases List.suffix_or_suffix_of_suffix ends first.suffix with shorter | longer
  · exact pending_unfinished.unique unfinished shorter
  · exact (unfinished.unique pending_unfinished longer).symm

end Decoder

end TapeMachine.Utf8

import TapeMachine.Proofs.Step

namespace TapeMachine

namespace Pairing

theorem Match.of_prepend {places more : List (Option Bracket)} {start finish : Nat}
    (pair : Match (more ++ places) (more.length + start) (more.length + finish)) :
    Match places start finish := by
  obtain ⟨before, inner, after, split, balanced, atStart, atFinish⟩ := pair
  have length : more.length ≤ before.length := by omega
  obtain ⟨rest, rfl⟩ := List.prefix_of_prefix_length_le ⟨places, rfl⟩ ⟨_, split.symm⟩ length
  rw [List.append_assoc] at split
  rw [List.length_append] at atStart
  exact ⟨rest, inner, after, List.append_cancel_left split, balanced, by omega, by omega⟩

theorem Partners.of_prepend {places more : List (Option Bracket)} {position partner : Nat}
    (pair : Partners (more ++ places) (more.length + position) (more.length + partner)) :
    Partners places position partner := pair.imp Match.of_prepend Match.of_prepend

/-- Behind a stretch in which every bracket has its partner, brackets have their partners behind it
as well. -/
theorem Complete.partner_behind {places more : List (Option Bracket)} {position partner : Nat}
    (complete : Complete more) (pair : Partners (more ++ places) (more.length + position) partner) :
    more.length ≤ partner := by
  by_contra before
  have inside : (more ++ places)[partner]? = more[partner]? :=
    List.getElem?_append_left (by omega)
  obtain ⟨bracket, here⟩ : ∃ bracket, more[partner]? = some (some bracket) := by
    rw [← inside]
    exact pair.elim (fun pair => ⟨_, pair.closing⟩) (fun pair => ⟨_, pair.opening⟩)
  obtain ⟨other, own⟩ := complete partner bracket here
  have same := (own.append places).unique pair.symm
  have bound := own.lt_length
  omega

end Pairing

namespace Code

/-- At a position of the one code, the other one has the same `offset` positions further on: the
same instruction and, for a bracket, the same partner. -/
structure SameAt (code other : Code) (offset position : Nat) : Prop where
  instruction : other.instructions[offset + position]? = code.instructions[position]?
  partner : ∀ op, code.instructions[position]? = some op → op.bracket?.isSome →
    other.partner? (offset + position) = (code.partner? position).map (offset + ·)

theorem toList_ofBytes_append (first second : List UInt8) :
    (Code.ofBytes (first ++ second)).instructions.toList =
      (Code.ofBytes first).instructions.toList ++ (Code.ofBytes second).instructions.toList :=
  List.filterMap_append

theorem brackets_ofBytes_append (first second : List UInt8) :
    Block.brackets (Code.ofBytes (first ++ second)).instructions.toList =
      Block.brackets (Code.ofBytes first).instructions.toList ++
        Block.brackets (Code.ofBytes second).instructions.toList := by
  rw [toList_ofBytes_append]
  exact List.map_append

theorem length_brackets (code : Code) :
    (Block.brackets code.instructions.toList).length = code.size := by
  simp [Block.brackets, size]

theorem partner?_lt_size {code : Code} {position partner : Nat}
    (paired : code.partner? position = some partner) : partner < code.size := by
  rw [← length_brackets]
  exact (partner?_eq_some_iff.mp paired).lt_length

theorem size_ofBytes_append (first second : List UInt8) :
    (Code.ofBytes (first ++ second)).size =
      (Code.ofBytes first).size + (Code.ofBytes second).size := by
  rw [← length_brackets, brackets_ofBytes_append, List.length_append, length_brackets,
    length_brackets]

/-- A program without stray brackets keeps its code when another one comes behind it. -/
theorem Matched.sameAt_first {first second : List UInt8} (matched : (Code.ofBytes first).Matched)
    {position : Nat} (within : position < (Code.ofBytes first).size) :
    (Code.ofBytes first).SameAt (.ofBytes (first ++ second)) 0 position := by
  constructor
  · rw [Nat.zero_add, ← Array.getElem?_toList, toList_ofBytes_append]
    rw [List.getElem?_append_left within, Array.getElem?_toList]
  · intro op here isBracket
    obtain ⟨partner, paired⟩ := Option.isSome_iff_exists.mp (matched position op here isBracket)
    have pair := (partner?_eq_some_iff.mp paired).append
      (Block.brackets (Code.ofBytes second).instructions.toList)
    rw [← brackets_ofBytes_append] at pair
    rw [paired, Nat.zero_add, partner?_eq_some_iff.mpr pair, Option.map_some, Nat.zero_add]

/-- Behind a program without stray brackets, another program has its own code, further on. A bracket
without partner there has none in the whole either. -/
theorem Matched.sameAt_second {first : List UInt8} (matched : (Code.ofBytes first).Matched)
    (second : List UInt8) (position : Nat) :
    (Code.ofBytes second).SameAt (.ofBytes (first ++ second)) (Code.ofBytes first).size position := by
  constructor
  · rw [← Array.getElem?_toList, toList_ofBytes_append]
    rw [List.getElem?_append_right (by simp [size]), Array.getElem?_toList]
    simp [size]
  · intro op here isBracket
    have complete := ((Code.ofBytes first).matched_iff_balanced.mp matched).complete
    have length := (Code.ofBytes first).length_brackets
    rcases paired : (Code.ofBytes second).partner? position with _ | partner
    · rw [Option.map_none, Option.eq_none_iff_forall_ne_some]
      intro partner found
      rw [partner?_eq_some_iff, brackets_ofBytes_append, ← length] at found
      obtain ⟨place, rfl⟩ := Nat.exists_eq_add_of_le (complete.partner_behind found)
      have own := partner?_eq_some_iff.mpr found.of_prepend
      rw [paired] at own
      cases own
    · rw [Option.map_some, partner?_eq_some_iff, brackets_ofBytes_append, ← length]
      exact (partner?_eq_some_iff.mp paired).prepend _

end Code

/-- The machine in another code, `offset` positions further on. -/
def Machine.relocate (machine : Machine) (code : Code) (offset : Nat) : Machine :=
  { machine with code := code, position := offset + machine.position }

def StepResult.relocate (result : StepResult) (code : Code) (offset : Nat) : StepResult :=
  { result with machine := result.machine.relocate code offset }

def RunResult.relocate (result : RunResult) (code : Code) (offset : Nat) : RunResult :=
  { result with machine := result.machine.relocate code offset }

def Advance.relocate (advance : Advance) (code : Code) (offset : Nat) : Advance where
  before := advance.before.relocate code offset
  op := advance.op
  after := advance.after.relocate code offset

def TraceEntry.relocate (entry : TraceEntry) (offset : Nat) : TraceEntry :=
  { entry with before := offset + entry.before, after := offset + entry.after }

@[simp] theorem TraceEntry.relocate_zero (entry : TraceEntry) : entry.relocate 0 = entry := by
  simp [relocate]

/-- What a trace says about an executed instruction. -/
def Advance.entry (advance : Advance) : TraceEntry where
  op := advance.op
  before := advance.before.position
  after := advance.after.position
  cursor := advance.after.tape.cursor
  value := advance.after.tape.current.toNat

/-- A run behind an earlier one of `steps` instructions. -/
def RunResult.following (result : RunResult) (steps : Nat) : RunResult :=
  { result with steps := steps + result.steps }

@[simp] theorem RunResult.following_zero (result : RunResult) : result.following 0 = result := by
  simp [following]

namespace Machine

variable {machine : Machine} {code : Code} {offset : Nat}

/-- Where two codes are the same, a step is the same. -/
theorem step_relocate (same : machine.code.SameAt code offset machine.position)
    (stream : ByteStream) :
    (machine.relocate code offset).step stream = (machine.step stream).relocate code offset := by
  have here : (machine.relocate code offset).peek = machine.peek := same.instruction
  rcases next : machine.peek with _ | op
  · rw [step_end next, step_end (here.trans next)]
    rfl
  rcases op.bracket_or_simple with isBracket | ⟨plain, rfl⟩
  · have partner : code.partner? (machine.relocate code offset).position = _ :=
      same.partner op next isBracket
    rw [step_bracket next isBracket, step_bracket (here.trans next) isBracket]
    simp only [relocate] at partner ⊢
    rw [partner]
    rcases machine.code.partner? machine.position with _ | partner
    · rfl
    · by_cases jumps : op.jumps machine.tape.current <;>
        simp [StepResult.relocate, relocate, jumps, Nat.add_assoc]
  · have config : (machine.relocate code offset).config stream = machine.config stream := rfl
    rw [step_simple next, step_simple (here.trans next), config]
    cases (plain.run (machine.config stream)).1 <;> rfl

theorem lt_size_of_peek {op : Instruction} (next : machine.peek = some op) :
    machine.position < machine.code.size := (Array.getElem?_eq_some_iff.mp next).1

end Machine

theorem Advance.map_entry_relocate (trail : List Advance) (code : Code) (offset : Nat) :
    (trail.map (·.relocate code offset)).map entry = (trail.map entry).map (·.relocate offset) := by
  rw [List.map_map, List.map_map]
  rfl

namespace Path

variable {initial machine later : Machine} {stream rest left : ByteStream} {trail : List Advance}
  {code : Code} {offset : Nat}

/-- The path that a machine takes in its code it takes wherever that code stands. -/
theorem relocate (path : Path initial stream trail machine rest)
    (same : ∀ position < initial.code.size, initial.code.SameAt code offset position) :
    Path (initial.relocate code offset) stream (trail.map (·.relocate code offset))
      (machine.relocate code offset) rest := by
  induction path with
  | start => exact .start
  | @next trail machine later rest left op path step ih =>
    have next := (Machine.step_ran step).2.1
    have sameCode := path.code
    have here : machine.code.SameAt code offset machine.position := by
      rw [sameCode]
      exact same machine.position (sameCode ▸ Machine.lt_size_of_peek next)
    have moved := Machine.step_relocate here rest
    rw [step] at moved
    rw [List.map_append, List.map_singleton]
    exact ih.next moved

theorem position_le (path : Path initial stream trail machine rest)
    (bound : initial.position ≤ initial.code.size) : machine.position ≤ initial.code.size := by
  induction path with
  | start => exact bound
  | @next trail machine later rest left op path step ih =>
    obtain ⟨-, next, -, leads⟩ := Machine.step_ran step
    have within := Machine.lt_size_of_peek next
    rw [path.code] at within
    rcases leads with behind | ⟨partner, found, behind⟩
    · omega
    · have inside := Code.partner?_lt_size found
      rw [path.code] at inside
      omega

theorem traceFrom_eq (path : Path initial stream trail machine rest) (budget : Nat)
    (seen : List TraceEntry) :
    initial.traceFrom (trail.length + budget) seen stream =
      machine.traceFrom budget ((trail.map Advance.entry).reverse ++ seen) rest := by
  induction path generalizing budget with
  | start => simp
  | @next trail machine later rest left op _ step ih =>
    have unfold : machine.traceFrom (budget + 1) ((trail.map Advance.entry).reverse ++ seen) rest =
        later.traceFrom budget
          (Advance.entry ⟨machine, op, later⟩ :: ((trail.map Advance.entry).reverse ++ seen)) left := by
      rw [Machine.traceFrom, step]
      rfl
    rw [List.length_append, List.length_singleton, Nat.add_assoc, Nat.add_comm 1, ih, unfold]
    simp

theorem trace_exhausted (path : Path initial stream trail machine rest) :
    initial.trace trail.length stream =
      (trail.map Advance.entry, ⟨machine, rest, trail.length, .exhausted⟩) := by
  have traced := path.traceFrom_eq 0 []
  rw [Nat.add_zero] at traced
  rw [Machine.trace, traced]
  simp [Machine.traceFrom]

theorem trace_rest {outcome : Outcome} {finish : RunEnd}
    (path : Path initial stream trail machine rest)
    (step : machine.step rest = ⟨outcome, later, left⟩) (rests : outcome.rest? = some finish)
    {budget : Nat} (enough : trail.length < budget) :
    initial.trace budget stream =
      (trail.map Advance.entry, ⟨later, left, trail.length, finish⟩) := by
  obtain ⟨extra, rfl⟩ : ∃ extra, budget = trail.length + (extra + 1) :=
    ⟨budget - trail.length - 1, by omega⟩
  have traced := path.traceFrom_eq (extra + 1) []
  rw [Machine.trace, traced]
  cases outcome with
  | ran op => cases rests
  | ended | waiting | failed error =>
    obtain rfl := Option.some.inj rests
    simp [Machine.traceFrom, step]

/-- A machine that stands in another code, behind a path there, goes on as it does in its own code.
If it comes to its end there, the other code has to end as well. -/
theorem trace_onward {whole : Machine}
    (path : Path whole stream trail (machine.relocate code offset) rest)
    (same : ∀ position < machine.code.size, machine.code.SameAt code offset position) (more : Nat)
    (ends : (machine.trace more rest).2.finish = .ended → code.size = offset + machine.code.size) :
    whole.trace (trail.length + more) stream =
      (trail.map Advance.entry ++ (machine.trace more rest).1.map (·.relocate offset),
        ((machine.trace more rest).2.relocate code offset).following trail.length) := by
  rcases machine.run_cases rest more with ⟨onward, last, left, further, rfl⟩ |
    ⟨onward, last, left, outcome, finish, later, final, further, within, step, rests⟩
  · have both := path.trans (further.relocate same)
    have length : trail.length + onward.length =
        (trail ++ onward.map (·.relocate code offset)).length := by simp
    rw [length, both.trace_exhausted, further.trace_exhausted, List.map_append,
      Advance.map_entry_relocate, ← length]
    rfl
  · have traced := further.trace_rest step rests within
    have moved : (last.relocate code offset).step left =
        ⟨outcome, later.relocate code offset, final⟩ := by
      rcases next : last.peek with _ | op
      · rw [Machine.step_end next] at step
        obtain ⟨rfl, rfl, rfl⟩ := StepResult.mk.inj step
        obtain rfl := Option.some.inj rests
        rw [traced] at ends
        have size := ends rfl
        have beyond : last.code.size ≤ last.position := Array.getElem?_eq_none_iff.mp next
        rw [further.code] at beyond
        apply Machine.step_end
        have place : (last.relocate code offset).position = offset + last.position := rfl
        exact Array.getElem?_eq_none_iff.mpr (show code.size ≤ _ by omega)
      · have here : last.code.SameAt code offset last.position := by
          rw [further.code]
          exact same last.position (further.code ▸ Machine.lt_size_of_peek next)
        rw [Machine.step_relocate here, step]
        rfl
    have both := path.trans (further.relocate same)
    have length : (trail ++ onward.map (·.relocate code offset)).length =
        trail.length + onward.length := by simp
    have enough : (trail ++ onward.map (·.relocate code offset)).length < trail.length + more := by
      omega
    rw [both.trace_rest moved rests enough, traced, List.map_append, Advance.map_entry_relocate, length]
    rfl

end Path

/-- The machine at the start of another code, with its tape, its bytes to read and its output. -/
def Machine.enter (machine : Machine) (code : Code) : Machine :=
  { machine with code := code, position := 0 }

/-- A run that ends has executed some instructions and is behind the last one. -/
theorem Machine.path_of_trace_ended {machine : Machine} {stream : ByteStream} {budget : Nat}
    (bound : machine.position ≤ machine.code.size)
    (ended : (machine.trace budget stream).2.finish = .ended) :
    ∃ trail last rest, Path machine stream trail last rest ∧ last.position = machine.code.size ∧
      machine.trace budget stream =
        (trail.map Advance.entry, ⟨last, rest, trail.length, .ended⟩) := by
  rcases machine.run_cases stream budget with ⟨trail, last, rest, path, rfl⟩ |
    ⟨trail, last, rest, outcome, finish, later, left, path, within, step, rests⟩
  · rw [path.trace_exhausted] at ended
    cases ended
  · have traced := path.trace_rest step rests within
    rw [traced] at ended
    obtain rfl : finish = .ended := ended
    obtain rfl : outcome = .ended := by cases outcome <;> simp_all [Outcome.rest?]
    have next := Machine.step_ended_iff.mp (congrArg StepResult.outcome step)
    rw [Machine.step_end next] at step
    obtain ⟨-, rfl, rfl⟩ := StepResult.mk.inj step
    have beyond : last.code.size ≤ last.position := Array.getElem?_eq_none_iff.mp next
    rw [path.code] at beyond
    exact ⟨trail, last, rest, path, Nat.le_antisymm (path.position_le bound) beyond, traced⟩

/-- If every bracket of a program has a partner, the program with another one behind it does what
the first program does: the same instructions, with the same tapes, output and failures, for ever if
the first program never ends. If the first program ends, the whole goes on instruction by instruction
as the second program does with what is there by then, its positions shifted by the number of
instructions of the first program. -/
theorem trace_concatenation (first second : List UInt8) (input : List UInt8)
    (fallback : Option Int) (stream : ByteStream) (budget : Nat)
    (matched : (Code.ofBytes first).Matched) :
    let alone := (Machine.load (.ofBytes first) input fallback).trace budget stream
    let code := Code.ofBytes (first ++ second)
    let size := (Code.ofBytes first).size
    (alone.2.finish = .ended → ∀ more,
      let onward := (alone.2.machine.enter (.ofBytes second)).trace more alone.2.stream
      (Machine.load code input fallback).trace (alone.2.steps + more) stream =
        (alone.1 ++ onward.1.map (·.relocate size),
          (onward.2.relocate code size).following alone.2.steps)) ∧
    (alone.2.finish ≠ .ended →
      (Machine.load code input fallback).trace budget stream =
        (alone.1, alone.2.relocate code 0)) := by
  intro alone code size
  have before : ∀ position < size, (Code.ofBytes first).SameAt code 0 position :=
    fun position within => matched.sameAt_first within
  constructor
  · intro ended more onward
    obtain ⟨trail, last, rest, path, atEnd, traced⟩ :=
      Machine.path_of_trace_ended (Nat.zero_le _) ended
    have there : last.relocate code 0 = (last.enter (.ofBytes second)).relocate code size := by
      simp only [Machine.relocate, Machine.enter, atEnd]
      simp [Machine.load, size]
    have path' := path.relocate before
    rw [there] at path'
    have whole := path'.trace_onward (fun position _ => matched.sameAt_second second position) more
      (fun _ => Code.size_ofBytes_append first second)
    have entries : (trail.map (·.relocate code 0)).map Advance.entry = trail.map Advance.entry := by
      rw [Advance.map_entry_relocate]
      simp
    rw [List.length_map, entries] at whole
    simp only [onward, alone, traced]
    exact whole
  · intro unfinished
    have begins : Path (Machine.load code input fallback) stream []
        ((Machine.load (.ofBytes first) input fallback).relocate code 0) stream := .start
    have whole := begins.trace_onward before budget (fun ended => absurd ended unfinished)
    simpa using whole

/-- `+[-]` ends after four instructions; behind it, `.]` prints a zero and fails at its stray
bracket, the sixth instruction of the whole. -/
theorem trace_concatenation_stray_behind :
    (Code.ofBytes [0x2B, 0x5B, 0x2D, 0x5D]).Matched ∧
      ∃ entries result,
        (Machine.load (.ofBytes [0x2B, 0x5B, 0x2D, 0x5D, 0x2E, 0x5D]) [] none).trace 6 .empty =
          (entries, result) ∧
        result.finish = .failed .mismatchedBrackets ∧ result.machine.position = 5 ∧
        result.machine.output = #[0] ∧ result.steps = 5 := by
  have matched : (Code.ofBytes [0x2B, 0x5B, 0x2D, 0x5D]).Matched :=
    (Code.matched_iff_balanced _).mpr (.plain (.nest (.plain .nil) .nil))
  have ended : ((Machine.load (.ofBytes [0x2B, 0x5B, 0x2D, 0x5D]) [] none).trace 5 .empty).2.finish =
      .ended := by decide +kernel
  have whole := (trace_concatenation [0x2B, 0x5B, 0x2D, 0x5D] [0x2E, 0x5D] [] none .empty 5 matched).1
    ended 2
  exact ⟨matched, _, _, whole, by decide +kernel, by decide +kernel, by decide +kernel,
    by decide +kernel⟩

end TapeMachine

import TapeMachine.Proofs.Console.Watch
import TapeMachine.Proofs.Live.Serving
import TapeMachine.Proofs.Text.Lossy

namespace TapeMachine

namespace Machine

theorem read_output (machine : Machine) (stream : ByteStream) :
    (machine.read stream).machine.output = machine.output := by
  obtain ⟨code, position, tape, input, fallback, output⟩ := machine
  rcases input with _ | ⟨byte, input⟩
  · rcases fallback with _ | value
    · simp only [read]
      cases stream.read <;> rfl
    · simp only [read]
      cases Cell.ofInt? value <;> rfl
  · rfl

theorem bracket_output (machine : Machine) (op : Instruction) (jumps : Cell → Bool)
    (stream : ByteStream) : (machine.bracket op jumps stream).machine.output = machine.output := by
  obtain ⟨code, position, tape, input, fallback, output⟩ := machine
  simp only [bracket]
  cases code.partner? position <;> rfl

/-- A step takes back nothing of the output. -/
theorem step_output (machine : Machine) (stream : ByteStream) :
    machine.output.toList <+: (machine.step stream).machine.output.toList := by
  have same {later : Machine} (output : later.output = machine.output) :
      machine.output.toList <+: later.output.toList :=
    output ▸ List.prefix_refl _
  rcases next : machine.peek with _ | op
  · simp only [step, next]
    exact List.prefix_refl _
  · simp only [step, next]
    cases op with
    | increment | decrement | left | right => exact same rfl
    | loopStart | loopEnd => exact same (bracket_output ..)
    | input => exact same (read_output ..)
    | output => exact ⟨[machine.tape.current], Array.toList_push.symm⟩

end Machine

/-- Along a path the output grows. -/
theorem Path.output {initial final : Machine} {stream left : ByteStream} {trail : List Advance}
    (path : Path initial stream trail final left) :
    initial.output.toList <+: final.output.toList := by
  induction path with
  | start => exact List.prefix_refl _
  | @next _ machine later rest _ _ _ step ih =>
    have grown : machine.output.toList <+: (machine.step rest).machine.output.toList :=
      machine.step_output rest
    rw [step] at grown
    exact ih.trans grown

namespace Live

variable {program : Program} {base : ByteStream} {fed : List StreamItem} {one two : Snapshot}

theorem Shown.path (shown : Shown program base fed one) :
    ∃ trail last rest, Path program.machine (base.feed fed) trail last rest ∧
      one.output = last.output := by
  obtain ⟨items, ⟨more, rfl⟩, passes⟩ := shown
  rw [← feed_feed]
  cases passes with
  | awaiting path | running path | done path | failed path =>
    exact ⟨_, _, _, path.feed more, rfl⟩

/-- Of two outputs of a program, one is a beginning of the other. -/
theorem Shown.comparable (shown : Shown program base fed one) (also_shown : Shown program base fed two) :
    one.output.toList <+: two.output.toList ∨ two.output.toList <+: one.output.toList := by
  obtain ⟨trail, last, rest, path, output⟩ := shown.path
  obtain ⟨more, final, left, longer, final_output⟩ := also_shown.path
  rw [output, final_output]
  rcases Nat.le_total trail.length more.length with bound | bound
  · obtain ⟨_, -, onward⟩ := path.continues longer bound
    exact .inl onward.output
  · obtain ⟨_, -, onward⟩ := longer.continues path bound
    exact .inr onward.output

end Live

namespace Console

/-- The console has printed these bytes, up to what its decoder holds back. -/
structure UpTo (console : Console) (longest : List UInt8) : Prop where
  count : console.printed = longest.length
  decoder : console.decoder = (Utf8.Decoder.ready.run longest).2

theorem UpTo.loaded (console : Console) (code : List UInt8) : (console.loaded code).UpTo [] :=
  ⟨rfl, rfl⟩

theorem UpTo.on {console later : Console} {longest : List UInt8} (up : console.UpTo longest)
    (same : console.PrintsOn later) : later.UpTo longest :=
  ⟨same.1.trans up.count, same.2.trans up.decoder⟩

/-- The output that the looks at a run have seen, and what they have printed of it. -/
structure Showing.Prints (showing : Showing) (longest : List UInt8) : Prop where
  seen : ∀ poll ∈ showing.polls, poll.snapshot.output.toList <+: longest
  reached : longest = [] ∨ ∃ poll ∈ showing.polls, poll.snapshot.output.toList = longest
  text : showing.printed.toList = (Utf8.Decoder.ready.run longest).1

theorem Showing.Prints.begin (load : Load) : Showing.Prints ⟨load, []⟩ [] := by
  refine ⟨?_, .inl rfl, by simp [printed, Utf8.Decoder.run]⟩
  intro poll member
  cases member

theorem showStatus_printsOn (console : Console) (status : Status) :
    console.PrintsOn (console.showStatus status).1 := by
  unfold showStatus
  split <;> exact ⟨rfl, rfl⟩

theorem poll_output (console : Console) (snapshot : Snapshot) :
    (console.showOutput snapshot.output).1.PrintsOn (console.poll snapshot).1 :=
  showStatus_printsOn _ _

/-- A look at more of the output prints what is new. -/
theorem showOutput_longer {console : Console} {longest new : List UInt8} (up : console.UpTo longest)
    {output : Array UInt8} (longer : output.toList = longest ++ new) :
    (console.showOutput output).1.UpTo output.toList ∧
      (console.showOutput output).2.toList = ((Utf8.Decoder.ready.run longest).2.run new).1 := by
  have count : output.size = longest.length + new.length := by
    rw [← Array.length_toList, longer, List.length_append]
  rw [longer]
  unfold showOutput
  split
  · obtain ⟨text, decoder⟩ := @Utf8.Decoder.decode_eq_run console.decoder new
    have fresh : output.toList.drop console.printed = new := by
      rw [longer, up.count, List.drop_left]
    rw [fresh]
    refine ⟨⟨count.trans List.length_append.symm, ?_⟩, ?_⟩
    · rw [Utf8.Decoder.run_append, ← up.decoder]
      exact decoder
    · rw [← up.decoder]
      exact text
  · rename_i nothing
    obtain rfl : new = [] := List.length_eq_zero_iff.mp (by rw [up.count] at nothing; omega)
    rw [List.append_nil]
    exact ⟨up, rfl⟩

theorem showOutput_shorter {console : Console} {longest : List UInt8} (up : console.UpTo longest)
    {output : Array UInt8} (shorter : output.toList <+: longest) :
    console.showOutput output = (console, "") := by
  have bound := shorter.length_le
  rw [Array.length_toList, ← up.count] at bound
  exact if_neg (Nat.not_lt_of_le bound)

theorem Showing.printed_concat (load : Load) (polls : List Poll) (poll : Poll) :
    (Showing.printed ⟨load, polls ++ [poll]⟩).toList =
      (Showing.printed ⟨load, polls⟩).toList ++ poll.text.toList := by
  simp [printed, String.join_append]

/-- One look more at a run whose output only grows. -/
theorem Showing.Prints.poll {console : Console} {load : Load} {polls : List Poll}
    {longest : List UInt8} {snapshot : Snapshot} (prints : Showing.Prints ⟨load, polls⟩ longest)
    (up : console.UpTo longest)
    (comparable : snapshot.output.toList <+: longest ∨ longest <+: snapshot.output.toList) :
    ∃ further, Showing.Prints
        ⟨load, polls ++ [⟨snapshot, (console.showOutput snapshot.output).2⟩]⟩ further ∧
      (console.poll snapshot).1.UpTo further := by
  rcases comparable with shorter | ⟨new, longer⟩
  · have nothing := showOutput_shorter up shorter
    have quiet := poll_output console snapshot
    rw [nothing] at quiet
    refine ⟨longest, ⟨?_, ?_, ?_⟩, up.on quiet⟩
    · intro poll member
      rcases List.mem_append.mp member with old | now
      · exact prints.seen poll old
      · obtain rfl := List.mem_singleton.mp now
        exact shorter
    · exact prints.reached.imp_right fun ⟨poll, member, same⟩ =>
        ⟨poll, List.mem_append_left _ member, same⟩
    · rw [printed_concat, nothing, prints.text]
      exact List.append_nil _
  · obtain ⟨shown, text⟩ := showOutput_longer up longer.symm
    refine ⟨snapshot.output.toList, ⟨?_, ?_, ?_⟩, shown.on (poll_output console snapshot)⟩
    · intro poll member
      rcases List.mem_append.mp member with old | now
      · exact (prints.seen poll old).trans ⟨new, longer⟩
      · obtain rfl := List.mem_singleton.mp now
        exact List.prefix_refl _
    · exact .inr ⟨_, List.mem_append_right _ (List.mem_singleton_self _), rfl⟩
    · rw [printed_concat, text, prints.text, ← longer, Utf8.Decoder.run_append]

end Console

end TapeMachine

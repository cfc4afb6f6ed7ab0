namespace TapeMachine

/-- What can go wrong while reading. A fault is either one that says the stream cannot be read,
or one that has nothing to do with reading and is named by its own label. -/
inductive Fault where
  | unreadable (cause : String)
  | foreign (label cause : String)
  deriving DecidableEq, Repr

/-- What one read will find. The end of the stream stays where it is, a fault happens once. -/
inductive StreamItem where
  | byte (value : UInt8)
  | fault (fault : Fault)
  | endOfStream
  deriving DecidableEq, Repr

/-- What a read finds behind the last item: the end, nothing yet, or the same fault for ever. -/
inductive StreamEnding where
  | endOfStream
  | waiting
  | broken (fault : Fault)
  deriving DecidableEq, Repr

/-- A stream that is read one byte at a time: what it will still deliver, read by read, and what a
read finds when all of that is used up. -/
structure ByteStream where
  items : List StreamItem
  ending : StreamEnding
  deriving DecidableEq, Repr

namespace ByteStream

/-- A stream that is at its end. -/
def empty : ByteStream := ⟨[], .endOfStream⟩

def ofBytes (bytes : List UInt8) : ByteStream := ⟨bytes.map .byte, .endOfStream⟩

/-- A stream on which every read fails in the same way. -/
def broken (cause : String) : ByteStream := ⟨[], .broken (.unreadable cause)⟩

/-- What the given items deliver, and after them a wait for more. -/
def script (items : List StreamItem) : ByteStream := ⟨items, .waiting⟩

/-- Adds items behind those that are left. -/
def feed (stream : ByteStream) (items : List StreamItem) : ByteStream :=
  { stream with items := stream.items ++ items }

/-- The answer to one read, with the stream that is left. -/
inductive Reading where
  | byte (value : UInt8) (rest : ByteStream)
  | fault (fault : Fault) (rest : ByteStream)
  | endOfStream
  | waiting

def read : ByteStream → Reading
  | ⟨.byte value :: items, ending⟩ => .byte value ⟨items, ending⟩
  | ⟨.fault fault :: items, ending⟩ => .fault fault ⟨items, ending⟩
  | ⟨.endOfStream :: _, _⟩ => .endOfStream
  | ⟨[], .endOfStream⟩ => .endOfStream
  | ⟨[], .waiting⟩ => .waiting
  | ⟨[], .broken fault⟩ => .fault fault ⟨[], .broken fault⟩

end ByteStream

end TapeMachine

import Rulebook.Shell.State

/-!
# Streams

This module provides the reading, writing and opening of streams, and what is said of faults on the stream for
diagnostics.
-/

namespace Rulebook

namespace Shell

namespace State

/-! ## Descriptors -/

/-- What a descriptor stands for. -/
def stream? (s : State) (descriptor : Nat) : Option Stream :=
  s.streams.lookup descriptor

/-- The state in which a descriptor stands for a stream, or for nothing. -/
def connect (s : State) (descriptor : Nat) (stream? : Option Stream) : State :=
  let others := s.streams.filter fun entry => entry.1 != descriptor
  { s with
    streams := match stream? with
      | some stream => (descriptor, stream) :: others
      | none => others }

/-- A new source of bytes. -/
def addSource (s : State) (bytes : ByteArray) : State × Stream :=
  ({ s with sources := s.sources.push bytes }, .source s.sources.size)

/-- A new sink. -/
def addSink (s : State) : State × Nat :=
  ({ s with sinks := s.sinks.push .empty }, s.sinks.size)

/-- A new open file. -/
def addHandle (s : State) (handle : Handle) : State × Stream :=
  ({ s with handles := s.handles.push handle }, .handle s.handles.size)

/-- What a sink has collected. -/
def collected (s : State) (number : Nat) : ByteArray :=
  s.sinks.getD number .empty

/-- The content of the file at a location. -/
def contentAt (s : State) (location : Location) : ByteArray :=
  match s.files.root.at? location with
  | some (.file content) => content
  | _ => .empty

/-! ## Reading -/

/-- What is left to read from a descriptor, if it can be read from. -/
def rest? (s : State) (descriptor : Nat) : Option ByteArray :=
  match s.stream? descriptor with
  | some .null => some .empty
  | some (.source number) => some (s.sources.getD number .empty)
  | some (.handle number) =>
    let handle := s.handles.getD number default
    let content := s.contentAt handle.location
    if handle.canRead then some (content.extract handle.position content.size) else none
  | _ => none

/-- The state after so many bytes have been read from a descriptor. -/
def consume (s : State) (descriptor count : Nat) : State :=
  match s.stream? descriptor with
  | some (.source number) =>
    { s with sources := s.sources.modify number fun bytes => bytes.extract count bytes.size }
  | some (.handle number) =>
    { s with handles := s.handles.modify number fun handle => { handle with position := handle.position + count } }
  | _ => s

/-- Take all that is left to read from a descriptor, if it can be read from. -/
def readAll? (s : State) (descriptor : Nat) : Option (ByteArray × State) :=
  (s.rest? descriptor).map fun bytes => (bytes, s.consume descriptor bytes.size)

/-! ## Writing -/

/-- A content with bytes written at a position. -/
def overwritten (content : ByteArray) (position : Nat) (bytes : ByteArray) : ByteArray :=
  let gap : ByteArray := ⟨Array.replicate (position - content.size) 0⟩
  content.extract 0 position ++ gap ++ bytes ++ content.extract (position + bytes.size) content.size

/-- Write bytes to a descriptor, if it can be written to. -/
def write? (s : State) (descriptor : Nat) (bytes : ByteArray) : Option State :=
  match s.stream? descriptor with
  | some .null => some s
  | some (.sink number) => some { s with sinks := s.sinks.modify number (· ++ bytes) }
  | some (.handle number) =>
    let handle := s.handles.getD number default
    if !handle.canWrite then none
    else
      let content := s.contentAt handle.location
      let position := if handle.appends then content.size else handle.position
      let file := Tree.file (overwritten content position bytes)
      some { s with
        files := { s.files with root := file.put handle.location s.files.root }
        handles := s.handles.setIfInBounds number { handle with position := position + bytes.size } }
  | _ => none

/-- Write a text on the stream for diagnostics. -/
def warn (s : State) (text : String) : State :=
  (s.write? 2 (Text.octetBytes text)).getD s

/-- What a message of the shell starts with. -/
def messageStart (s : State) : String :=
  let speaker := match s.speaker? with
    | some speaker => speaker ++ ": "
    | none => ""
  s.name ++ ": " ++ toString s.line ++ ": " ++ speaker

/-- Tell of a fault; the command ends with the status. -/
def complain (s : State) (message : String) (status : Nat) : State :=
  (s.warn (s.messageStart ++ message ++ "\n")).ended status

/-- Write to the output; the command ends well unless that is not possible. -/
def print (s : State) (bytes : ByteArray) : State :=
  if bytes.isEmpty then s.ended 0
  else
    match s.write? 1 bytes with
    | some s => s.ended 0
    | none => s.complain ((s.speaker?.getD "") ++ ": I/O error") 1

/-- Write a text to the output. -/
def printText (s : State) (text : String) : State :=
  s.print (Text.octetBytes text)

/-! ## Opening -/

/-- The streams that stand in the place of files of a device. -/
def device? (s : State) (path : String) : Option (Option Stream) :=
  if path = "/dev/null" then some (some .null)
  else if path = "/dev/full" then some (some .full)
  else if path = "/dev/stdin" ∨ path = "/dev/fd/0" then some (s.stream? 0)
  else if path = "/dev/stdout" ∨ path = "/dev/fd/1" then some (s.stream? 1)
  else if path = "/dev/stderr" ∨ path = "/dev/fd/2" then some (s.stream? 2)
  else none

/-- Open a file for reading. A directory can be opened, but there is nothing to read in it. -/
def openInput (s : State) (path : String) : Except SystemError (State × Option Stream) :=
  match s.device? path with
  | some stream? => .ok (s, stream?)
  | none =>
    match s.files.locate (State.path path) false with
    | .error error => .error error
    | .ok location =>
      let (s, stream) := s.addHandle ⟨location, 0, true, false, false⟩
      .ok (s, some stream)

/-- Open a file for writing, with its content kept or not. -/
def openOutput (s : State) (path : String) (keep canRead appends : Bool) :
    Except SystemError (State × Option Stream) :=
  match s.device? path with
  | some stream? => .ok (s, stream?)
  | none => do
    let path := State.path path
    let old := if keep then (s.files.read path).toOption.getD .empty else .empty
    let files ← s.files.write path old
    let location ← files.locate path false
    let (s, stream) := { s with files := files }.addHandle ⟨location, 0, canRead, true, appends⟩
    return (s, some stream)

end State

end Shell

end Rulebook

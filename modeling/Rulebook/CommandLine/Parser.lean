import Rulebook.CommandLine.Arguments

/-!
# Reading command lines

This module provides `CommandLine.parse`, the arguments of a command line or why it is not carried out.

A switch is written with its name after two dashes or with its letter after one; letters of switches that take no value
can be written together. A value follows its switch in the same word, after an equals sign or, for a letter, at once, or
else in the next word. The values of a switch are judged when the next switch is met, so an unknown word in between is
the fault that is told.
-/

namespace Rulebook

namespace CommandLine

/-- A switch that waits for values in further words. -/
structure Waiting where
  switch : Switch
  values : List String

/-- Does the switch take the next word, if that is no switch? -/
def Waiting.isOpen (waiting : Waiting) : Bool :=
  waiting.switch.repeats || waiting.values.isEmpty

/-- How far the words have been read. -/
structure Reading where
  given : Arguments
  waiting? : Option Waiting

namespace Reading

/-- Nothing has been read. -/
def start : Reading :=
  ⟨.none, none⟩

/-- The arguments with a switch and its values. A missing value is told before a repetition, and that before a wrong
value. -/
def accept (given : Arguments) (switch : Switch) (values : List String) : Except Usage Arguments :=
  if switch.takesValue && values.isEmpty then .error .invalidValue
  else if given.has switch then .error .conflict
  else given.take switch values

/-- The arguments with the switch that has been waiting. -/
def settle (reading : Reading) : Except Usage Arguments :=
  match reading.waiting? with
  | none => .ok reading.given
  | some waiting => accept reading.given waiting.switch waiting.values

/-- A switch with all its values. -/
def complete (reading : Reading) (switch : Switch) (values : List String) : Except Usage Reading := do
  let given ← reading.settle
  return ⟨← accept given switch values, none⟩

/-- A switch whose values follow. -/
def await (reading : Reading) (switch : Switch) : Except Usage Reading := do
  let given ← reading.settle
  return ⟨given, some ⟨switch, []⟩⟩

/-- A switch by its name, and the value that stands in the same word. -/
def long (reading : Reading) (name : String) (value? : Option String) : Except Usage Reading :=
  match Switch.ofName? name with
  | none => .error .unknownArgument
  | some switch =>
    match switch.takesValue, value? with
    | true, some value => reading.complete switch [value]
    | true, none => reading.await switch
    | false, some _ => .error .tooManyValues
    | false, none => reading.complete switch []

/-- Switches by their letters, and the value that stands in the same word. -/
def short (reading : Reading) : List Char → Except Usage Reading
  | [] => .ok reading
  | c :: rest =>
    match Switch.ofLetter? c with
    | none => .error .unknownArgument
    | some switch =>
      if switch.takesValue then
        match rest with
        | [] => reading.await switch
        | '=' :: value => reading.complete switch [String.ofList value]
        | value => reading.complete switch [String.ofList value]
      else
        match reading.complete switch [] with
        | .error usage => .error usage
        | .ok next => next.short rest

/-- A word that is no switch. -/
def plain (reading : Reading) (word : String) : Except Usage Reading :=
  match reading.waiting? with
  | none => .error .unknownArgument
  | some waiting =>
    if waiting.isOpen then .ok { reading with waiting? := some { waiting with values := waiting.values ++ [word] } }
    else .error .unknownArgument

/-- One word, after its first dashes told which kind it is. -/
def word (reading : Reading) (text : String) : Except Usage Reading :=
  match text.toList with
  | '-' :: '-' :: rest =>
    let name := String.ofList (rest.takeWhile (· ≠ '='))
    match rest.dropWhile (· ≠ '=') with
    | _ :: value => reading.long name (some (String.ofList value))
    | [] => reading.long name none
  | '-' :: c :: rest => reading.short (c :: rest)
  | _ => reading.plain text

/-- All words. After two dashes that stand alone no switch follows, and no value belongs to one. -/
def words (reading : Reading) : List String → Except Usage Reading
  | [] => .ok reading
  | text :: rest =>
    if text = "--" then
      if rest.isEmpty then .ok reading else .error .unknownArgument
    else
      match reading.word text with
      | .error usage => .error usage
      | .ok next => next.words rest

end Reading

/-- The arguments of a command line. -/
def parse (words : List String) : Except Usage Arguments := do
  let reading ← Reading.start.words words
  let given ← reading.settle
  if given.markdown && given.format?.isSome then .error .conflict else return given

end CommandLine

end Rulebook

import Rulebook.Shell.Quoting
import Rulebook.Shell.Stream

/-!
# What programs share

This module provides:

* `Shell.Utility` — what a program does with its arguments;
* `Utility.OptionForm` and `Utility.readOptions` — the options of a program, and how they are taken off its arguments;
* `Utility.refuse` and `Utility.misuse` — messages;
* `Utility.read` and `Utility.write` — the bytes of its inputs, and its output; and
* `Utility.lines` and `Utility.compareChars` — the lines of bytes, and their order.
-/

namespace Rulebook

namespace Shell

/-- What a program does with its arguments; the first text is the name under which it was started. -/
abbrev Utility := String → List String → State → State

namespace Utility

/-! ## Options -/

/-- Does a text go with an option? -/
inductive OptionText where
  | none
  | required
  | optional
deriving DecidableEq

/-- An option: a letter, a name, and whether a text goes with it. An option without a name has an empty one. -/
structure OptionForm where
  letter : Char
  name : String
  text : OptionText

/-- An option without a text. -/
def flag (letter : Char) (name : String) : OptionForm :=
  ⟨letter, name, .none⟩

/-- An option that a text goes with. -/
def setting (letter : Char) (name : String) : OptionForm :=
  ⟨letter, name, .required⟩

/-- The options and the operands that arguments are. -/
structure Given where
  options : List (Char × String)
  operands : List String

namespace Given

/-- Is the option there? -/
def has (given : Given) (letter : Char) : Bool :=
  given.options.any fun option => option.1 == letter

/-- The text of an option that was given last. -/
def text? (given : Given) (letter : Char) : Option String :=
  ((given.options.filter fun option => option.1 == letter).getLast?).map Prod.snd

/-- The option of some that was given last, with its text. -/
def last? (given : Given) (letters : List Char) : Option (Char × String) :=
  (given.options.filter fun option => letters.contains option.1).getLast?

/-- One option more, before the others. -/
def withOption (given : Given) (letter : Char) (text : String) : Given :=
  { given with options := (letter, text) :: given.options }

/-- One operand more, before the others. -/
def withOperand (given : Given) (operand : String) : Given :=
  { given with operands := operand :: given.operands }

end Given

/-- The form of a letter. -/
def formOf? (forms : List OptionForm) (letter : Char) : Option OptionForm :=
  forms.find? fun form => form.letter == letter

/-- The form that a name stands for, which may be cut short; in words why there is none. -/
def formNamed (forms : List OptionForm) (name : String) : Except String OptionForm :=
  let found := forms.filter fun form => !form.name.isEmpty && name.toList.isPrefixOf form.name.toList
  match found.find? fun form => form.name == name, found with
  | some form, _ => .ok form
  | none, [] => .error ("unrecognized option '--" ++ name ++ "'")
  | none, form :: more =>
    if more.all fun other => other.letter == form.letter then .ok form
    else
      let names := String.join (found.map fun form => " '--" ++ form.name ++ "'")
      .error ("option '--" ++ name ++ "' is ambiguous; possibilities:" ++ names)

/-- Take the options off arguments. With `mixed`, they may stand behind operands as well. In words what is wrong. `fuel`
bounds the number of arguments. -/
def readOptions (forms : List OptionForm) (mixed : Bool) : (fuel : Nat) → List String → Except String Given
  | 0, _ => .ok ⟨[], []⟩
  | _, [] => .ok ⟨[], []⟩
  | fuel + 1, argument :: rest =>
    match argument.toList with
    | ['-', '-'] => .ok ⟨[], rest⟩
    | '-' :: '-' :: long =>
      let name := long.takeWhile (· ≠ '=')
      match formNamed forms (String.ofList name), long.drop name.length with
      | .error message, _ => .error message
      | .ok form, '=' :: text =>
        if form.text = .none then .error ("option '--" ++ form.name ++ "' doesn't allow an argument")
        else (readOptions forms mixed fuel rest).map (·.withOption form.letter (String.ofList text))
      | .ok form, _ =>
        match form.text, rest with
        | .required, [] => .error ("option '--" ++ form.name ++ "' requires an argument")
        | .required, text :: rest => (readOptions forms mixed fuel rest).map (·.withOption form.letter text)
        | _, _ => (readOptions forms mixed fuel rest).map (·.withOption form.letter "")
    | '-' :: c :: letters => byLetter fuel rest (c :: letters)
    | _ =>
      if mixed then (readOptions forms mixed fuel rest).map (·.withOperand argument) else .ok ⟨[], argument :: rest⟩
where
  byLetter (fuel : Nat) (rest : List String) : List Char → Except String Given
    | [] => readOptions forms mixed fuel rest
    | c :: more =>
      match formOf? forms c with
      | none => .error ("invalid option -- '" ++ c.toString ++ "'")
      | some form =>
        match form.text with
        | .none => (byLetter fuel rest more).map (·.withOption c "")
        | .optional => (readOptions forms mixed fuel rest).map (·.withOption c (String.ofList more))
        | .required =>
          match more, rest with
          | [], [] => .error ("option requires an argument -- '" ++ c.toString ++ "'")
          | [], text :: rest => (readOptions forms mixed fuel rest).map (·.withOption c text)
          | _, _ => (readOptions forms mixed fuel rest).map (·.withOption c (String.ofList more))

/-! ## Messages -/

/-- Tell of a fault; the program ends with the status. -/
def refuse (name message : String) (status : Nat) (s : State) : State :=
  (s.warn (name ++ ": " ++ message ++ "\n")).ended status

/-- Tell of a fault in the arguments. -/
def misuse (name message : String) (s : State) : State :=
  refuse name (message ++ "\nTry '" ++ name ++ " --help' for more information.") 1 s

/-- Run a program on its options and operands. -/
def withOptions (forms : List OptionForm) (run : String → Given → State → State) : Utility := fun name arguments s =>
  match readOptions forms true (arguments.length + 1) arguments with
  | .error message => misuse name message s
  | .ok given => run name given (s.ended 0)

/-! ## Input and output -/

/-- Why an input cannot be read. -/
inductive InputFault where
  | cannotOpen (reason : String)
  | cannotRead (reason : String)

/-- The reason in words. -/
def InputFault.reason : InputFault → String
  | .cannotOpen reason => reason
  | .cannotRead reason => reason

/-- Is the stream of a descriptor that of a directory? -/
def readsDirectory (s : State) (descriptor : Nat) : Bool :=
  match s.stream? descriptor with
  | some (.handle number) =>
    match s.files.root.at? (s.handles.getD number default).location with
    | some (.directory _) => true
    | _ => false
  | _ => false

/-- The bytes that are left on a descriptor. -/
def readDescriptor (descriptor : Nat) (s : State) : Except InputFault (ByteArray × State) :=
  if readsDirectory s descriptor then .error (.cannotRead "Is a directory")
  else
    match s.readAll? descriptor with
    | some result => .ok result
    | none => .error (.cannotRead "Bad file descriptor")

/-- The bytes of an input: of a file, or of the standard input if a dash stands for the path. -/
def read (path : String) (s : State) : Except InputFault (ByteArray × State) :=
  if path = "-" ∨ path = "/dev/stdin" then readDescriptor 0 s
  else if path = "/dev/null" then .ok (.empty, s)
  else
    match s.files.read (State.path path) with
    | .ok bytes => .ok (bytes, s)
    | .error .isDirectory => .error (.cannotRead "Is a directory")
    | .error error => .error (.cannotOpen error.reason)

/-- Write to the output; the status gets worse if that is not possible. -/
def write (name : String) (bytes : ByteArray) (s : State) : State :=
  if bytes.isEmpty then s
  else
    match s.stream? 1, s.write? 1 bytes with
    | _, some written => written
    | some .full, none => refuse name "write error: No space left on device" 1 s
    | _, none => refuse name "write error: Bad file descriptor" 1 s

/-- Write a text to the output. -/
def writeText (name : String) (text : List Char) (s : State) : State :=
  write name (Text.octetBytes (String.ofList text)) s

/-- The inputs that can be read, by path and content, and the state after what is told of the others. -/
def readInputs (name : String) (paths : List String) (s : State) : List (String × ByteArray) × State :=
  (if paths.isEmpty then ["-"] else paths).foldl (fun (inputs, s) path =>
    match read path s with
    | .ok (bytes, s) => (inputs ++ [(path, bytes)], s)
    | .error fault => (inputs, refuse name (Quoting.shown path ++ ": " ++ fault.reason) 1 s)) ([], s)

/-- The lines of a text with their ends, given the reversed start of the first. -/
def linesFrom {α : Type} (isEnd : α → Bool) (reversed : List α) : List α → List (List α)
  | [] => if reversed.isEmpty then [] else [reversed.reverse]
  | c :: rest =>
    if isEnd c then (c :: reversed).reverse :: linesFrom isEnd [] rest else linesFrom isEnd (c :: reversed) rest

/-- The lines of bytes, as characters, with their ends. -/
def lines (bytes : ByteArray) : List (List Char) :=
  linesFrom (· == '\n') [] (Text.octets bytes).toList

/-- The lines of bytes without their ends. -/
def bareLines (bytes : ByteArray) : List (List Char) :=
  (lines bytes).map fun line => if line.getLast? = some '\n' then line.dropLast else line

/-- How two texts compare byte by byte. -/
def compareChars : List Char → List Char → Ordering
  | [], [] => .eq
  | [], _ => .lt
  | _, [] => .gt
  | a :: as, b :: bs => if a = b then compareChars as bs else if a < b then .lt else .gt

/-- Lines with their ends, one after the other. -/
def joinLines (lines : List (List Char)) : List Char :=
  lines.flatMap fun line => line ++ ['\n']

end Utility

end Shell

end Rulebook

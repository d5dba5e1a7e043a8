import Rulebook.Shell.Step

/-!
# Builtins for variables and options

This module provides `Builtin.exportNames`, `Builtin.fixNames`, `Builtin.forgetNames` and `Builtin.localNames` for
variables, `Builtin.set` for options and arguments, and `Builtin.shift` for arguments.
-/

namespace Rulebook

namespace Shell

/-- The start of a text that could be a name. -/
def nameStart (text : String) : String :=
  String.ofList (text.toList.takeWhile (· ≠ '='))

/-- Set a variable, or tell that it may not be set. What follows an equals sign does not belong to the name. -/
def Step.setting (text value : String) (s : State) : Step :=
  let name := nameStart text
  if !isName name then .fail (name ++ ": bad variable name") s
  else if s.isFixed name then .fail (name ++ ": is read only") s
  else .next (s.set name value)

namespace Builtin

/-- Carry out a step for each of the arguments. -/
def forAll (step : String → State → Step) : List String → State → Step
  | [], s => .next s
  | argument :: rest, s => (step argument s).andThen (forAll step rest)

/-- The name before an equals sign, and the value after it. -/
def splitAssignment (text : String) : String × Option String :=
  let name := text.toList.takeWhile (· ≠ '=')
  match text.toList.drop name.length with
  | _ :: value => (String.ofList name, some (String.ofList value))
  | [] => (text, none)

/-! ## Marks of variables -/

/-- A variable as it could be written in a script. -/
def shownBinding (start : String) (name : String) (binding : Binding) : String :=
  let value := match binding.value? with
    | some value => "=" ++ inQuotes value
    | none => ""
  start ++ name ++ value ++ "\n"

/-- Write the variables of a kind, in order. -/
def showBindings (start : String) (isWanted : Binding → Bool) (s : State) : Step :=
  let wanted := (s.bindings.filter fun entry => isWanted entry.2).mergeSort fun a b => decide (a.1 ≤ b.1)
  .next (s.printText (String.join (wanted.map fun entry => shownBinding start entry.1 entry.2)))

/-- Mark a variable, which is set first if there is a value; one that is not there gets no value. -/
def markBinding (mark : Binding → Binding) (argument : String) (s : State) : Step :=
  let marked (s : State) (name : String) : Step :=
    .next (s.bind name (some (mark ((s.binding? name).getD ⟨none, false, false⟩))))
  match splitAssignment argument with
  | (name, some value) => (Step.setting name value s).andThen fun s => marked s name
  | (name, none) => if isName name then marked s name else .fail (name ++ ": bad variable name") s

/-- Mark variables, or write those that are marked. -/
def markAll (start : String) (isMarked : Binding → Bool) (mark : Binding → Binding) : Builtin := fun arguments s =>
  withOptions "p" arguments s fun options operands s =>
    if operands.isEmpty || !options.isEmpty then showBindings start isMarked s
    else forAll (markBinding mark) operands (s.ended 0)

/-- Let programs see variables. -/
def exportNames : Builtin :=
  markAll "export " Binding.isExported fun binding => { binding with isExported := true }

/-- Let variables stay as they are. -/
def fixNames : Builtin :=
  markAll "readonly " Binding.isFixed fun binding => { binding with isFixed := true }

/-- Forget variables or functions. -/
def forgetNames : Builtin := fun arguments s =>
  withOptions "vf" arguments s fun options operands s =>
    let forget (name : String) (s : State) : Step :=
      if options.getLast?.any fun option => option.1 == 'f' then
        .next { s with functions := s.functions.filter fun entry => entry.1 != name }
      else if !isName (nameStart name) || name.toList.contains '=' then
        .fail (nameStart name ++ ": bad variable name") s
      else if s.isFixed name then .fail (name ++ ": is read only") s
      else .next (s.bind name none)
    forAll forget operands (s.ended 0)

/-- Let changes to variables last only as long as the function runs. -/
def localNames : Builtin := fun arguments s =>
  let keep (argument : String) (s : State) : Step :=
    if argument = "-" then .next s.rememberOptions
    else
      match splitAssignment argument with
      | (name, some value) => Step.setting name value (if isName name then s.remember name else s)
      | (name, none) =>
        if !isName name then .fail (name ++ ": bad variable name") s
        else .next (s.remember name)
  if s.scopes.isEmpty then .fail "not in a function" s else forAll keep arguments (s.ended 0)

/-! ## Options -/

/-- The names of the options, in the order in which they are told, and their letters; some have none. -/
def optionNames : List (String × Char) :=
  [("errexit", 'e'), ("noglob", 'f'), ("ignoreeof", 'I'), ("interactive", 'i'), ("monitor", 'm'), ("noexec", 'n'),
   ("stdin", 's'), ("xtrace", 'x'), ("verbose", 'v'), ("vi", 'V'), ("emacs", 'E'), ("noclobber", 'C'),
   ("allexport", 'a'), ("notify", 'b'), ("nounset", 'u'), ("privileged", 'p'), ("nolog", 'N'), ("debug", 'D')]

/-- The options with one of them on or off. -/
def withOption (letter : Char) (on : Bool) (options : List Char) : List Char :=
  let others := options.filter (· ≠ letter)
  if on then letter :: others else others

/-- The options as they are told. -/
def shownOptions (options : List Char) (asCommands : Bool) : String :=
  let lines := optionNames.map fun (name, letter) =>
    let on := options.contains letter
    if asCommands then "set " ++ (if on then "-o " else "+o ") ++ name ++ "\n"
    else name ++ String.ofList (List.replicate (16 - name.length) ' ') ++ (if on then "on\n" else "off\n")
  (if asCommands then "" else "Current option settings\n") ++ String.join lines

/-- What options at the start of a command line ask for. -/
structure OptionReading where
  options : List Char
  /-- Is a command to follow? -/
  takesCommand : Bool
  /-- What is to be written. -/
  shown : String
  rest : List String
  /-- Was the end of the options marked by two dashes? -/
  isEnded : Bool

/-- Read options. With `forShell`, they stand on the command line of a shell. In words what is wrong. `fuel` bounds the
number of arguments. -/
def readSettings (forShell : Bool) (reading : OptionReading) : (fuel : Nat) → Except String OptionReading
  | 0 => .ok reading
  | fuel + 1 =>
    match reading.rest with
    | [] => .ok reading
    | argument :: rest =>
      match argument.toList with
      | ['-'] =>
        let options := if forShell then reading.options else reading.options.filter fun c => c ≠ 'x' ∧ c ≠ 'v'
        .ok { reading with options := options, rest := rest }
      | ['-', '-'] => .ok { reading with rest := rest, isEnded := true }
      | '-' :: letters => letterByLetter fuel true letters { reading with rest := rest }
      | '+' :: letters => letterByLetter fuel false letters { reading with rest := rest }
      | _ => .ok reading
where
  letterByLetter (fuel : Nat) (on : Bool) : List Char → OptionReading → Except String OptionReading
    | [], reading => readSettings forShell reading fuel
    | c :: more, reading =>
      if c = 'c' ∧ forShell then letterByLetter fuel on more { reading with takesCommand := true }
      else if c = 'l' ∧ forShell then letterByLetter fuel on more reading
      else if c = 'o' then
        match reading.rest with
        | [] => letterByLetter fuel on more { reading with shown := reading.shown ++ shownOptions reading.options !on }
        | name :: rest =>
          match optionNames.lookup name with
          | some letter =>
            letterByLetter fuel on more { reading with options := withOption letter on reading.options, rest := rest }
          | none => .error ("Illegal option -o " ++ name)
      else if "efIimnsxvVECabup".toList.contains c then
        letterByLetter fuel on more { reading with options := withOption c on reading.options }
      else .error ("Illegal option -" ++ c.toString)

/-- Read options; in words what is wrong. -/
def settings (forShell : Bool) (options : List Char) (arguments : List String) : Except String OptionReading :=
  readSettings forShell ⟨options, false, "", arguments, false⟩ (arguments.length + 1)

/-- Turn options on and off and set the arguments, or write all variables. -/
def set : Builtin := fun arguments s =>
  if arguments.isEmpty then showBindings "" (·.value?.isSome) s
  else
    match settings false s.options arguments with
    | .error message => .fail message s
    | .ok reading =>
      let s := { s with options := reading.options }
      let s := if reading.rest.isEmpty && !reading.isEnded then s
        else { s with arguments := reading.rest, optionIndex := 1, optionOffset? := none }
      .next (s.printText reading.shown)

/-- Take arguments away from the start. -/
def shift : Builtin := fun arguments s =>
  withNumber (arguments.headD "1") s fun n s =>
    if s.arguments.length < n then .fail "can't shift that many" s
    else .next { s.ended 0 with arguments := s.arguments.drop n, optionIndex := 1, optionOffset? := none }

end Builtin

end Shell

end Rulebook

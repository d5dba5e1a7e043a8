import Rulebook.Shell.Arithmetic
import Rulebook.Shell.Runner

/-!
# Expansion

This module provides what words stand for when a script runs:

* `Runner.expand` — the glyphs that the parts of a word give;
* `Runner.expandWord`, `Runner.expandAll` and `Runner.expandFields` — the fields of words; and
* `Runner.expandText` — the one text of a word that is not split.

Expansion may set variables, run commands, and fail; so each function tells the step that it is as well.
-/

namespace Rulebook

namespace Shell

/-! ## Values -/

/-- The glyphs of arguments, each one for itself. -/
def argumentGlyphs (quoted : Bool) : List String → List Glyph
  | [] => []
  | [argument] => one argument
  | argument :: rest => one argument ++ .gap quoted :: argumentGlyphs quoted rest
where
  one (argument : String) : List Glyph :=
    if quoted then .quote :: Glyph.ofText argument true false else Glyph.ofText argument false true

/-- The glyphs of the value of a parameter. With `inFields`, arguments may become fields of their own. -/
def valueGlyphs (s : State) (inFields quoted : Bool) (name value : String) : List Glyph :=
  if inFields && (name == "@" || (name == "*" && !quoted)) then argumentGlyphs quoted s.arguments
  else Glyph.ofText value quoted !quoted

/-- Is a value missing, or empty where that counts as missing? -/
def isMissing (empty : Bool) (value? : Option String) : Bool :=
  match value? with
  | none => true
  | some value => empty && value.isEmpty

/-- The glyphs that an expansion gives, and the step that it is. -/
abbrev Expanded := List Glyph × Step

/-- Go on with what an expansion gives, if the script goes on. -/
def Expanded.andThen (expanded : Expanded) (more : List Glyph → State → Expanded) : Expanded :=
  match expanded.2.flow with
  | .next => more expanded.1 expanded.2.state
  | _ => ([], expanded.2)

/-- A fault in an expansion. -/
def Expanded.fail (message : String) (s : State) : Expanded :=
  ([], .fail message s)

namespace Runner

/-- What a command writes, without the line ends at its end. -/
def expandOutput (runner : Runner) (command : Command) (quoted : Bool) (s : State) : Expanded :=
  match command with
  | .nothing => ([], .next s)
  | _ =>
    let (writing, number) := s.addSink
    let step := runner.runCopy .alone command (writing.connect 1 (some (.sink number)))
    let waited := s.waited step
    let text := (Text.octets (waited.collected number)).toList.filter (· ≠ '\x00')
    let trimmed := (text.reverse.dropWhile (· == '\n')).reverse
    (Glyph.ofText (String.ofList trimmed) quoted !quoted,
      .next { waited with status := s.status, outputStatus := waited.status })

/-- The value of the expression in a text. -/
def expandValue (text : String) (quoted : Bool) (s : State) : Expanded :=
  match (Arithmetic.parse text).bind (Arithmetic.eval s) with
  | .error fault => .fail (fault.message text) s
  | .ok (value, s) => (Glyph.ofText (toString value) quoted !quoted, .next s)

mutual

/-- What the parts of a word give. With `inFields`, it is to be split into fields, and with `splits`, so is its text.
`fuel` bounds how deep and how long words are. -/
def expandFrom (runner : Runner) : (fuel : Nat) → (inFields splits : Bool) → List Part → State → Expanded
  | 0, _, _, _, s => ([], .stopped s)
  | _, _, _, [], s => ([], .next s)
  | fuel + 1, inFields, splits, part :: rest, s =>
    let expanded : Expanded := match part with
      | .text text quoted =>
        (if quoted then .quote :: Glyph.ofText text true false else Glyph.ofText text false splits, .next s)
      | .parameter name form word quoted => expandParameter runner fuel inFields name form word quoted s
      | .output command quoted => runner.expandOutput command quoted s
      | .arithmetic expression quoted =>
        (expandFrom runner fuel false false expression s).andThen fun glyphs s =>
          expandValue (Glyph.text glyphs) quoted s
    expanded.andThen fun glyphs s =>
      (expandFrom runner fuel inFields splits rest s).andThen fun more s => (glyphs ++ more, .next s)

/-- What a parameter gives. -/
def expandParameter (runner : Runner) : (fuel : Nat) → (inFields : Bool) → String → Form → Word → (quoted : Bool) →
    State → Expanded
  | 0, _, _, _, _, _, s => ([], .stopped s)
  | fuel + 1, inFields, name, form, word, quoted, s =>
    let value? := s.parameter? name
    let shown (s : State) : Expanded := (valueGlyphs s inFields quoted name (s.parameter name), .next s)
    let inWord : Expanded := expandFrom runner fuel inFields (!quoted) (if quoted then word else Word.withHome s word) s
    let isRefused := value?.isNone && s.hasOption 'u'
    let refused : Expanded := .fail (name ++ ": parameter not set") s
    match form with
    | .bad => .fail "Bad substitution" s
    | .plain => if isRefused then refused else shown s
    | .length =>
      if isRefused then refused
      else (Glyph.ofText (toString (value?.getD "").length) quoted !quoted, .next s)
    | .otherwise empty => if isMissing empty value? then inWord else shown s
    | .instead empty => if isMissing empty value? then ([], .next s) else inWord
    | .assigned empty =>
      if !isMissing empty value? then shown s
      else
        (expandFrom runner fuel false false word s).andThen fun glyphs s =>
          Expanded.andThen ([], Step.setting name (Glyph.text glyphs) s) fun _ s => shown s
    | .required empty =>
      if !isMissing empty value? then shown s
      else
        (expandFrom runner fuel false false word s).andThen fun glyphs s =>
          let missing := "parameter not set" ++ if empty then " or null" else ""
          .fail (name ++ ": " ++ if word.isEmpty then missing else Glyph.text glyphs) s
    | .trimmed fromEnd longest =>
      if isRefused then refused
      else
        (expandFrom runner fuel false false word s).andThen fun glyphs s =>
          let trimmed := (Pattern.ofChars (Glyph.marked glyphs)).trim fromEnd longest (value?.getD "").toList
          (Glyph.ofText (String.ofList trimmed) quoted !quoted, .next s)

end

/-- What the parts of a word give. With `inFields`, it is to be split into fields. -/
def expand (runner : Runner) (inFields : Bool) (word : Word) (s : State) : Expanded :=
  runner.expandFrom runner.bound inFields false word s

/-- The one text of a word. -/
def expandText (runner : Runner) (word : Word) (s : State) : String × Step :=
  let (glyphs, step) := runner.expand false word s
  (Glyph.text glyphs, step)

/-- The fields of a word. -/
def expandWord (runner : Runner) (word : Word) (s : State) : List String × Step :=
  let (glyphs, step) := runner.expand true (word.withHome s) s
  match step.flow with
  | .next => ((Glyph.fields step.state.separators glyphs).flatMap (Glyph.pathnames step.state), step)
  | _ => ([], step)

/-- The fields of words. -/
def expandAll (runner : Runner) : List Word → State → List String × Step
  | [], s => ([], .next s)
  | word :: rest, s =>
    let (fields, step) := runner.expandWord word s
    match step.flow with
    | .next =>
      let (more, step) := expandAll runner rest step.state
      (fields ++ more, step)
    | _ => ([], step)

/-- The fields of the words of a command, after those found already. Behind some commands a word that looks like an
assignment is not split. -/
def expandFields (runner : Runner) (found : List String) : List Word → State → List String × Step
  | [], s => (found, .next s)
  | word :: rest, s =>
    let (fields, step) : List String × Step :=
      match if takesAssignments s found then word.assignment? else none with
      | some (name, value) =>
        let (value, step) := runner.expandText (value.withHomes s true) s
        ([name ++ "=" ++ value], step)
      | none => runner.expandWord word s
    match step.flow with
    | .next => expandFields runner (found ++ fields) rest step.state
    | _ => ([], step)

end Runner

end Shell

end Rulebook

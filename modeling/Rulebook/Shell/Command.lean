/-!
# Shell commands

This module provides the parts of a script for `sh`, as they are read and before anything in them is expanded: `Part`,
a part of a word; `Redirection`; and `Command`. Every text in them has one character for each byte.

The body of a here-document comes after the line that asks for it, so a redirection holds only its number.
-/

namespace Rulebook

namespace Shell

/-- What is made of the value of a parameter. `empty` tells that an empty value counts as none. -/
inductive Form where
  | plain
  | length
  /-- The word, if there is no value. -/
  | otherwise (empty : Bool)
  /-- The word, if there is a value. -/
  | instead (empty : Bool)
  /-- The word, if there is no value, which is set to it. -/
  | assigned (empty : Bool)
  /-- The end of the script, if there is no value. -/
  | required (empty : Bool)
  /-- The value without a part that matches the word. -/
  | trimmed (fromEnd longest : Bool)
  /-- No form at all, which is told when the part is expanded. -/
  | bad
deriving DecidableEq, Inhabited

/-- What a redirection does with its descriptor. -/
inductive Access where
  | read
  | write
  /-- Write, even if the file is there and is to be kept. -/
  | overwrite
  | append
  | readWrite
  /-- Let it stand for what another descriptor does, or for nothing. -/
  | duplicate
  /-- Read a here-document. -/
  | document (number : Nat)
deriving DecidableEq, Inhabited

mutual

/-- A part of a word. -/
inductive Part where
  | text (text : String) (quoted : Bool)
  | parameter (name : String) (form : Form) (word : List Part) (quoted : Bool)
  | output (command : Command) (quoted : Bool)
  | arithmetic (expression : List Part) (quoted : Bool)

/-- A descriptor, what becomes of it, and the word that the operator takes. -/
inductive Redirection where
  | mk (descriptor : Nat) (access : Access) (word : List Part)

/-- A command. A number that comes first is the line on which it starts. -/
inductive Command where
  /-- Nothing to do. -/
  | nothing
  /-- Assignments, a name with arguments, and redirections. -/
  | simple (line : Nat) (assignments : List (String × List Part)) (words : List (List Part))
      (redirections : List Redirection)
  | pipeline (commands : List Command)
  | negated (command : Command)
  | both (first second : Command)
  | either (first second : Command)
  | sequence (first second : Command)
  /-- A command that is not waited for. -/
  | background (line : Nat) (command : Command)
  /-- Repeat the body as long as the condition ends well, or badly. -/
  | loop (whileFails : Bool) (condition body : Command)
  /-- The body for each of the words. -/
  | each (line : Nat) (name : String) (words : List (List Part)) (body : Command)
  | branch (condition yes no : Command)
  /-- The command after the first pattern that the word matches. -/
  | choose (line : Nat) (word : List Part) (cases : List (List (List Part) × Command))
  /-- The body on a copy of the state. -/
  | subshell (line : Nat) (body : Command) (redirections : List Redirection)
  | redirected (line : Nat) (command : Command) (redirections : List Redirection)
  | definition (name : String) (line : Nat) (body : Command)

end

instance : Inhabited Command :=
  ⟨.nothing⟩

/-- A word before expansion. -/
abbrev Word := List Part

/-- The text of a word that needs no expansion and is not quoted. -/
def Word.plain? : Word → Option String
  | [.text text false] => some text
  | _ => none

/-- Is any of the word quoted? -/
def Word.isQuoted (word : Word) : Bool :=
  word.any fun part =>
    match part with
    | .text _ quoted => quoted
    | _ => false

/-- A character that a name can start with. -/
def isNameStart (c : Char) : Bool :=
  c.isAlpha || c == '_'

/-- A character of a name. -/
def isNameChar (c : Char) : Bool :=
  c.isAlphanum || c == '_'

/-- Is it a name for a variable? -/
def isName (text : String) : Bool :=
  match text.toList with
  | c :: rest => isNameStart c && rest.all isNameChar
  | [] => false

/-- A parameter of one character that is no letter. -/
def isSpecial (c : Char) : Bool :=
  c.isDigit || "#?$!-*@".toList.contains c

/-- The name and the value of an assignment, if the word is one. -/
def Word.assignment? : Word → Option (String × Word)
  | .text text false :: rest =>
    let chars := text.toList
    let name := String.ofList (chars.takeWhile isNameChar)
    match chars.dropWhile isNameChar with
    | '=' :: value =>
      if !isName name then none
      else if value.isEmpty then some (name, rest)
      else some (name, .text (String.ofList value) false :: rest)
    | _ => none
  | _ => none

end Shell

end Rulebook

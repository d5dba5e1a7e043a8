import Rulebook.Power
import Rulebook.Shell.State

/-!
# Arithmetic in scripts

A script can compute with whole numbers of 64 bits, which wrap around. This module provides:

* `Shell.Arithmetic` — an expression;
* `Shell.Arithmetic.parse` — the expression in a text; and
* `Shell.Arithmetic.eval` — its value, and the state after the assignments in it.
-/

namespace Rulebook

namespace Shell

/-- An expression. -/
inductive Arithmetic where
  | number (value : Int)
  | variable (name : String)
  | unary (operator : String) (operand : Arithmetic)
  | binary (operator : String) (first second : Arithmetic)
  | choice (condition yes no : Arithmetic)
  /-- Set a variable to a value, or to what an operator makes of its old value and another one. -/
  | assignment (name : String) (operator? : Option String) (value : Arithmetic)

namespace Arithmetic

/-- Why an expression has no value. -/
inductive Fault where
  | expecting (what : String)
  | divisionByZero
  /-- A variable holds a text that is no number. -/
  | illegalNumber (text : String)
  /-- A variable that may not be changed is to be set. -/
  | fixed (name : String)

/-- The fault of an expression in words. -/
def Fault.message (expression : String) : Fault → String
  | .expecting what => "arithmetic expression: expecting " ++ what ++ ": \"" ++ expression ++ "\""
  | .divisionByZero => "arithmetic expression: division by zero: \"" ++ expression ++ "\""
  | .illegalNumber text => "Illegal number: " ++ text
  | .fixed name => name ++ ": is read only"

/-! ## Numbers -/

/-- The value of a digit; letters go on after nine. -/
def digit? (base : Nat) (c : Char) : Option Nat :=
  let value? :=
    if '0' ≤ c ∧ c ≤ '9' then some (c.toNat - '0'.toNat)
    else if 'a' ≤ c ∧ c ≤ 'f' then some (c.toNat - 'a'.toNat + 10)
    else if 'A' ≤ c ∧ c ≤ 'F' then some (c.toNat - 'A'.toNat + 10)
    else none
  value?.filter (· < base)

/-- The number that digits are, after the digits before them, and what follows. -/
def digits (base value : Nat) : List Char → Nat × List Char
  | [] => (value, [])
  | c :: rest =>
    match digit? base c with
    | some d => digits base (base * value + d) rest
    | none => (value, c :: rest)

/-- The greatest number. -/
def greatest : Nat :=
  twoTo 63 - 1

/-- The number that stands here: to base sixteen after `0x`, to base eight after `0`. -/
def readNumber (chars : List Char) : Nat × List Char :=
  let (value, rest) := match chars with
    | '0' :: 'x' :: rest => digits 16 0 rest
    | '0' :: 'X' :: rest => digits 16 0 rest
    | '0' :: rest => digits 8 0 rest
    | _ => digits 10 0 chars
  (min value greatest, rest)

/-- A number, wrapped around to 64 bits. -/
def wrap (n : Int) : Int :=
  n.bmod (twoTo 64)

/-- The number that a variable holds; an empty one holds zero. -/
def ofText (text : String) : Except Fault Int :=
  let isBlank (c : Char) : Bool := c == ' ' || c == '\t' || c == '\n'
  let (sign, chars) : Int × List Char := match text.toList.dropWhile isBlank with
    | '-' :: rest => (-1, rest)
    | '+' :: rest => (1, rest)
    | rest => (1, rest)
  let (value, rest) := readNumber chars
  let isNumber := text.isEmpty || chars.head?.any Char.isDigit
  if isNumber && rest.all isBlank then .ok (sign * value) else .error (.illegalNumber text)

/-! ## Tokens -/

/-- A piece of an expression. -/
inductive Token where
  | number (value : Nat)
  | name (text : String)
  | symbol (text : String)
deriving DecidableEq

/-- The symbols of more than one character, longer ones first. -/
def longSymbols : List String :=
  ["<<=", ">>=", "&&", "||", "<=", ">=", "==", "!=", "<<", ">>", "+=", "-=", "*=", "/=", "%=", "&=", "|=", "^="]

/-- The symbol that starts with a character. -/
def symbol (c : Char) (rest : List Char) : String :=
  (longSymbols.find? fun text => text.toList.isPrefixOf (c :: rest)).getD c.toString

/-- The tokens of a text. `fuel` bounds the number of characters. -/
def tokens : (fuel : Nat) → List Char → List Token
  | 0, _ => []
  | _ + 1, [] => []
  | fuel + 1, c :: rest =>
    if c.isDigit then
      let (value, rest) := readNumber (c :: rest)
      .number value :: tokens fuel rest
    else if isNameStart c then
      .name (String.ofList ((c :: rest).takeWhile isNameChar)) :: tokens fuel (rest.dropWhile isNameChar)
    else if c == ' ' || c == '\t' || c == '\n' then tokens fuel rest
    else
      let text := symbol c rest
      .symbol text :: tokens fuel (rest.drop (text.length - 1))

/-! ## Reading -/

/-- How strongly a binary operator binds. -/
def rank? (operator : String) : Option Nat :=
  [("||", 1), ("&&", 2), ("|", 3), ("^", 4), ("&", 5), ("==", 6), ("!=", 6), ("<", 7), (">", 7), ("<=", 7), (">=", 7),
   ("<<", 8), (">>", 8), ("+", 9), ("-", 9), ("*", 10), ("/", 10), ("%", 10)].lookup operator

/-- The operator of an assignment; with none, the value is taken as it is. -/
def assigning? (text : String) : Option (Option String) :=
  if text = "=" then some none
  else
    match text.toList.reverse with
    | '=' :: reversed =>
      let operator := String.ofList reversed.reverse
      if ["+", "-", "*", "/", "%", "&", "|", "^", "<<", ">>"].contains operator then some (some operator) else none
    | _ => none

/-- An expression and the tokens after it. -/
abbrev Parsed := Except Fault (Arithmetic × List Token)

mutual

/-- An assignment, or a choice. -/
def readAssignment : (fuel : Nat) → List Token → Parsed
  | 0, _ => .error (.expecting "primary")
  | fuel + 1, tokens =>
    match tokens with
    | .name name :: .symbol text :: rest =>
      match assigning? text with
      | some operator? =>
        (readAssignment fuel rest).map fun (value, rest) => (.assignment name operator? value, rest)
      | none => readChoice fuel tokens
    | _ => readChoice fuel tokens

/-- A condition with two branches, or without any. -/
def readChoice : (fuel : Nat) → List Token → Parsed
  | 0, _ => .error (.expecting "primary")
  | fuel + 1, tokens => do
    let (condition, rest) ← readBinary fuel 1 tokens
    match rest with
    | .symbol "?" :: rest =>
      match ← readAssignment fuel rest with
      | (yes, .symbol ":" :: rest) =>
        let (no, rest) ← readChoice fuel rest
        return (.choice condition yes no, rest)
      | _ => .error (.expecting "':'")
    | _ => return (condition, rest)

/-- Operands joined by operators of a rank or a higher one. -/
def readBinary : (fuel : Nat) → (rank : Nat) → List Token → Parsed
  | 0, _, _ => .error (.expecting "primary")
  | fuel + 1, rank, tokens => do
    let (first, rest) ← readOperand fuel tokens
    readBinaryMore fuel rank first rest

/-- What operators of a rank or a higher one join to an operand. -/
def readBinaryMore : (fuel : Nat) → (rank : Nat) → Arithmetic → List Token → Parsed
  | 0, _, _, _ => .error (.expecting "primary")
  | fuel + 1, rank, first, tokens =>
    match tokens with
    | .symbol operator :: rest =>
      match (rank? operator).filter (rank ≤ ·) with
      | some own => do
        let (second, rest) ← readBinary fuel (own + 1) rest
        readBinaryMore fuel rank (.binary operator first second) rest
      | none => .ok (first, tokens)
    | _ => .ok (first, tokens)

/-- A number, a variable, an expression in parentheses, or a sign and an operand. -/
def readOperand : (fuel : Nat) → List Token → Parsed
  | 0, _ => .error (.expecting "primary")
  | fuel + 1, tokens =>
    match tokens with
    | .number value :: rest => .ok (.number value, rest)
    | .name name :: rest => .ok (.variable name, rest)
    | .symbol "(" :: rest =>
      match readAssignment fuel rest with
      | .ok (inner, .symbol ")" :: rest) => .ok (inner, rest)
      | .ok _ => .error (.expecting "')'")
      | .error fault => .error fault
    | .symbol text :: rest =>
      if ["-", "+", "!", "~"].contains text then
        (readOperand fuel rest).map fun (operand, rest) => (.unary text operand, rest)
      else .error (.expecting "primary")
    | [] => .error (.expecting "primary")

end

/-- The expression in a text. -/
def parse (text : String) : Except Fault Arithmetic :=
  let tokens := tokens (text.length + 1) text.toList
  match readAssignment (8 * tokens.length + 8) tokens with
  | .error fault => .error fault
  | .ok (expression, []) => .ok expression
  | .ok _ => .error (.expecting "EOF")

/-! ## Values -/

/-- The truth of a statement as a number. -/
def ofBool (b : Bool) : Int :=
  if b then 1 else 0

/-- A function on the bits of two numbers. -/
def onBits (f : UInt64 → UInt64 → UInt64) (a b : Int) : Int :=
  (f (UInt64.ofInt a) (UInt64.ofInt b)).toNat

/-- What a binary operator makes of two numbers. -/
def combine (operator : String) (a b : Int) : Except Fault Int :=
  match operator with
  | "+" => .ok (wrap (a + b))
  | "-" => .ok (wrap (a - b))
  | "*" => .ok (wrap (a * b))
  | "/" => if b = 0 then .error .divisionByZero else .ok (wrap (a.tdiv b))
  | "%" => if b = 0 then .error .divisionByZero else .ok (wrap (a.tmod b))
  | "<<" => .ok (wrap (onBits (· <<< ·) a b))
  | ">>" => .ok (a.fdiv (Int.ofNat (twoTo (b.emod 64).toNat)))
  | "<" => .ok (ofBool (a < b))
  | ">" => .ok (ofBool (b < a))
  | "<=" => .ok (ofBool (a ≤ b))
  | ">=" => .ok (ofBool (b ≤ a))
  | "==" => .ok (ofBool (a == b))
  | "!=" => .ok (ofBool (a != b))
  | "&" => .ok (wrap (onBits (· &&& ·) a b))
  | "|" => .ok (wrap (onBits (· ||| ·) a b))
  | "^" => .ok (wrap (onBits (· ^^^ ·) a b))
  | _ => .error (.expecting "EOF")

/-- What a sign makes of a number. -/
def signed (operator : String) (a : Int) : Int :=
  match operator with
  | "-" => wrap (-a)
  | "!" => ofBool (a == 0)
  | "~" => -a - 1
  | _ => a

/-- The value of an expression, and the state after the assignments in it. -/
def eval (s : State) : Arithmetic → Except Fault (Int × State)
  | .number value => .ok (value, s)
  | .variable name => (ofText ((s.value? name).getD "")).map (·, s)
  | .unary operator operand => (eval s operand).map fun (a, s) => (signed operator a, s)
  | .binary operator first second => do
    let (a, s) ← eval s first
    if operator = "&&" ∧ a = 0 then return (0, s)
    else if operator = "||" ∧ a ≠ 0 then return (1, s)
    else
      let (b, s) ← eval s second
      if operator = "&&" ∨ operator = "||" then return (ofBool (b != 0), s)
      else return (← combine operator a b, s)
  | .choice condition yes no => do
    let (a, s) ← eval s condition
    if a ≠ 0 then eval s yes else eval s no
  | .assignment name operator? value => do
    let (b, s) ← eval s value
    let result ← match operator? with
      | none => .ok b
      | some operator => do combine operator (← ofText ((s.value? name).getD "")) b
    if s.isFixed name then .error (.fixed name) else return (result, s.set name (toString result))

end Arithmetic

end Shell

end Rulebook

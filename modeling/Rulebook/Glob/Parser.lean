import Rulebook.Glob

/-!
# Reading globs

This module provides `Glob.parse`, the glob of a pattern, and `Glob.Fault`, why a pattern is none, with its
wording.

A backslash takes the next character as it is. A comma separates branches inside a group and is a literal
outside. In a class, a first `]`, a first `-` and a last `-` stand for themselves. Two stars stand for parts only
between slashes, or between a slash and an end; elsewhere they are two stars.
-/

namespace Rulebook

namespace Glob

/-- Why a pattern is no glob. -/
inductive Fault where
  | unclosedClass
  | invalidRange (first last : Char)
  | unopenedGroup
  | unclosedGroup
  | danglingEscape
deriving DecidableEq

/-- The fault in words. -/
def Fault.message : Fault → String
  | .unclosedClass => "unclosed character class; missing ']'"
  | .invalidRange first last =>
    "invalid range; '" ++ first.toString ++ "' > '" ++ last.toString ++ "'"
  | .unopenedGroup =>
    "unopened alternate group; missing '\x7b' (maybe escape '\x7d' with '[\x7d]'?)"
  | .unclosedGroup =>
    "unclosed alternate group; missing '\x7d' (maybe escape '\x7b' with '[\x7b]'?)"
  | .danglingEscape => "dangling '\\'"

/-! ## Classes -/

/-- A range in a class, by its first and last character. -/
abbrev CharRange := Char × Char

/-- The ranges, the last of them first, with the last one extended. -/
def extendLast (last : Char) : List CharRange → Except Fault (List CharRange)
  | [] => .ok [(last, last)]
  | (first, _) :: more => if last < first then .error (.invalidRange first last) else .ok ((first, last) :: more)

/-- The ranges up to the bracket that closes the class, and what follows it. `dashed` tells that a dash waits for
the end of its range. -/
def readRanges (first dashed : Bool) (reversed : List CharRange) :
    List Char → Except Fault (List CharRange × List Char)
  | [] => .error .unclosedClass
  | c :: rest =>
    if c = ']' ∧ !first then
      .ok ((if dashed then ('-', '-') :: reversed else reversed).reverse, rest)
    else if c = '-' ∧ !first ∧ !dashed then readRanges false true reversed rest
    else if dashed then
      match extendLast c reversed with
      | .error fault => .error fault
      | .ok extended => readRanges false false extended rest
    else readRanges false false ((c, c) :: reversed) rest

/-- A byte as a range. -/
def single (byte : UInt8) : UInt8 × UInt8 :=
  (byte, byte)

/-- A range of characters on bytes: between characters of several bytes, only the last byte of the first and the
first byte of the last span a range, and the other bytes stand for themselves. -/
def rangeBytes (range : CharRange) : List (UInt8 × UInt8) :=
  let first := charBytes range.1
  let last := charBytes range.2
  if range.1 = range.2 then first.map single
  else
    first.dropLast.map single ++ [(first.getLastD 0, last.headD 0)] ++ (last.drop 1).map single

/-- A class after its opening bracket, and what follows it. -/
def readClass (chars : List Char) : Except Fault (Token × List Char) :=
  let (negated, body) := match chars with
    | '!' :: rest => (true, rest)
    | '^' :: rest => (true, rest)
    | _ => (false, chars)
  (readRanges true false [] body).map fun (ranges, rest) => (.oneOf negated (ranges.flatMap rangeBytes), rest)

/-! ## Patterns -/

/-- What has been read: the tokens of the current branch, reversed; the finished branches of the innermost group,
the last one first; and the same for the groups around it. -/
structure Reader where
  tokens : List Token
  finished : List (List Token)
  outer : List (List Token × List (List Token))

namespace Reader

/-- Nothing has been read. -/
def start : Reader :=
  ⟨[], [], []⟩

/-- One token more. -/
def push (token : Token) (r : Reader) : Reader :=
  { r with tokens := token :: r.tokens }

/-- Two stars that stand for themselves. -/
def pushStars (r : Reader) : Reader :=
  (r.push .star).push .star

/-- Inside a group? -/
def inGroup (r : Reader) : Bool :=
  !r.outer.isEmpty

/-- A group starts. -/
def openGroup (r : Reader) : Reader :=
  ⟨[], [], (r.tokens, r.finished) :: r.outer⟩

/-- A branch ends. -/
def nextBranch (r : Reader) : Reader :=
  { r with tokens := [], finished := r.tokens.reverse :: r.finished }

/-- A group ends. -/
def closeGroup (r : Reader) : Except Fault Reader :=
  match r.outer with
  | [] => .error .unopenedGroup
  | (tokens, finished) :: outer =>
    .ok ⟨.group (r.tokens.reverse :: r.finished).reverse :: tokens, finished, outer⟩

/-- Replace the last token by one that stands for any parts, unless it does so already. -/
def replaceLast (token : Token) (r : Reader) : Reader :=
  match r.tokens with
  | .anyPartsFirst :: _ => r
  | .anyPartsLast :: _ => r
  | _ :: more => { r with tokens := token :: more }
  | [] => r.push token

/-- Two stars, given the character before them and the ones after; returns the ones that are left. -/
def twoStars (before? : Option Char) (rest : List Char) (r : Reader) : Reader × List Char :=
  let atStart := r.inGroup && (before? == some ',' || before? == some '\x7b')
  if r.tokens.isEmpty then
    match rest with
    | [] => (r.push .anyPartsFirst, [])
    | '/' :: more => (r.push .anyPartsFirst, more)
    | _ => (r.pushStars, rest)
  else if before? != some '/' && !atStart then (r.pushStars, rest)
  else
    match rest with
    | [] => (r.replaceLast .anyPartsLast, [])
    | '/' :: more => (r.replaceLast .anyPartsBetween, more)
    | c :: _ =>
      if r.inGroup && (c == ',' || c == '\x7d') then (r.replaceLast .anyPartsLast, rest)
      else (r.pushStars, rest)

/-- The construct that starts with `c`, and the characters after it. -/
def step (before? : Option Char) (c : Char) (rest : List Char) (r : Reader) :
    Except Fault (Reader × List Char) :=
  if c = '?' then .ok (r.push .any, rest)
  else if c = '*' then
    match rest with
    | '*' :: more => .ok (r.twoStars before? more)
    | _ => .ok (r.push .star, rest)
  else if c = '[' then (readClass rest).map fun (token, rest) => (r.push token, rest)
  else if c = '\x7b' then .ok (r.openGroup, rest)
  else if c = '\x7d' then r.closeGroup.map (·, rest)
  else if c = ',' ∧ r.inGroup then .ok (r.nextBranch, rest)
  else if c = '\\' then
    match rest with
    | [] => .error .danglingEscape
    | escaped :: rest => .ok (r.push (.literal escaped), rest)
  else .ok (r.push (.literal c), rest)

/-- The last of the characters that were taken from `chars` to leave `rest`. -/
def lastTaken (chars rest : List Char) : Option Char :=
  (chars.take (chars.length - rest.length)).getLast?

/-- Read all constructs; `before?` is the character before them. -/
def run (before? : Option Char) (r : Reader) (chars : List Char) : Except Fault Reader :=
  match chars with
  | [] => .ok r
  | c :: after =>
    match r.step before? c after with
    | .error fault => .error fault
    | .ok (next, rest) =>
      if _h : rest.length < (c :: after).length then next.run (lastTaken (c :: after) rest) rest else .ok next
termination_by chars.length
decreasing_by exact _h

end Reader

/-- The glob of a pattern. -/
def parse (pattern : String) : Except Fault Glob := do
  let r ← Reader.start.run none pattern.toList
  if r.inGroup then .error .unclosedGroup else return ⟨r.tokens.reverse⟩

/-- What is said of a pattern that is no glob. -/
def faultMessage (pattern : String) (fault : Fault) : String :=
  "Invalid glob pattern '" ++ pattern ++ "': error parsing glob '" ++ pattern ++ "': " ++ fault.message

end Glob

end Rulebook

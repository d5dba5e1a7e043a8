import Rulebook.Shell.Format
import Rulebook.Shell.Pattern
import Rulebook.Shell.Utility.Frame

/-!
# Exchanging characters

This module provides `Utility.tr`, which exchanges characters of a set for those of another one, removes them, or keeps
only one of those that follow each other.
-/

namespace Rulebook

namespace Shell

namespace Utility

/-- A part of a set of characters. -/
inductive SetPart where
  | one (c : Char)
  | range (first last : Char)
  /-- A class of characters, by name. -/
  | named (name : String)
  /-- A character a number of times; as often as there is room without a number. -/
  | times (c : Char) (count? : Option Nat)

/-- Why a text is no set. -/
inductive SetFault where
  | range (text : String)
  | className (name : String)
  | count (text : String)

/-- The fault in words. -/
def SetFault.message : SetFault → String
  | .range text => "range-endpoints of " ++ Quoting.plain text ++ " are in reverse collating sequence order"
  | .className name => "invalid character class " ++ Quoting.plain name
  | .count text => "invalid repeat count " ++ Quoting.plain text ++ " in [c*n] construct"

/-- The next character with its escapes resolved, and whether it was escaped. -/
def setChar (chars : List Char) : Option ((Char × Bool) × List Char) :=
  match chars with
  | [] => none
  | '\\' :: rest =>
    match rest with
    | [] => some (('\\', false), [])
    | c :: after =>
      match Format.letters.lookup c with
      | some control => some ((control, true), after)
      | none =>
        if Format.isOctal c then
          let digits := (rest.take 3).takeWhile Format.isOctal
          let code := digits.foldl (fun n d => 8 * n + (d.toNat - '0'.toNat)) 0
          let digits := if 255 < code then digits.take 2 else digits
          some ((Format.ofOctal digits, true), rest.drop digits.length)
        else some ((c, true), after)
  | c :: rest => some ((c, false), rest)

/-- A text with its escapes resolved; the flags tell which characters were escaped. `fuel` bounds their number. -/
def setChars : (fuel : Nat) → List Char → List (Char × Bool)
  | 0, _ => []
  | fuel + 1, chars =>
    match setChar chars with
    | some (c, rest) => c :: setChars fuel rest
    | none => []

/-- The class or the repetition in brackets that stands here after the bracket, and what follows it. -/
def bracketPart? (chars : List (Char × Bool)) : Except SetFault (Option (SetPart × List (Char × Bool))) :=
  let closing (mark : Char) (rest : List (Char × Bool)) : Option (List Char × List (Char × Bool)) :=
    let inner := rest.takeWhile fun c => !(c == (mark, false))
    match rest.drop inner.length with
    | _ :: (']', false) :: after => some (inner.map Prod.fst, after)
    | _ => none
  match chars with
  | (':', false) :: rest =>
    match closing ':' rest with
    | some (name, after) =>
      let name := String.ofList name
      if (Pattern.class? name).isSome then .ok (some (.named name, after)) else .error (.className name)
    | none => .ok none
  | ('=', false) :: rest =>
    match closing '=' rest with
    | some ([c], after) => .ok (some (.one c, after))
    | _ => .ok none
  | (c, _) :: ('*', false) :: rest =>
    let digits := (rest.takeWhile fun c => c.1 != ']').map Prod.fst
    match rest.drop digits.length with
    | (']', false) :: after =>
      if digits.all Char.isDigit then
        let base := if digits.head? = some '0' then 8 else 10
        let count := digits.foldl (fun n d => base * n + (d.toNat - '0'.toNat)) 0
        .ok (some (.times c (if count = 0 then none else some count), after))
      else .error (.count (String.ofList digits))
    | _ => .ok none
  | _ => .ok none

/-- The parts of a set. `fuel` bounds the number of characters. -/
def setParts : (fuel : Nat) → List (Char × Bool) → Except SetFault (List SetPart)
  | 0, _ => .ok []
  | _, [] => .ok []
  | fuel + 1, c :: rest => do
    match ← if c = ('[', false) then bracketPart? rest else .ok none with
    | some (part, after) => return part :: (← setParts fuel after)
    | none =>
      match rest with
      | ('-', false) :: last :: after =>
        if last.1 < c.1 then .error (.range (String.ofList [c.1, '-', last.1]))
        else return .range c.1 last.1 :: (← setParts fuel after)
      | _ => return .one c.1 :: (← setParts fuel rest)

/-- The parts of the set that a text is. -/
def readSet (text : String) : Except SetFault (List SetPart) :=
  let chars := setChars (text.length + 1) text.toList
  setParts (chars.length + 1) chars

/-- All characters there are. -/
def allBytes : List Char :=
  (List.range 256).map Char.ofNat

/-- The characters of a part; `room` tells how many there is room for. -/
def SetPart.chars (room : Nat) : SetPart → List Char
  | .one c => [c]
  | .range first last => allBytes.filter fun c => first ≤ c && c ≤ last
  | .named name => allBytes.filter fun c => ((Pattern.class? name).map (· c)).getD false
  | .times c count? => List.replicate (count?.getD room) c

/-- The characters of parts; a part without a count fills them up to a length. -/
def charsOf (length : Nat) (parts : List SetPart) : List Char :=
  let known := (parts.map fun part => (part.chars 0).length).foldl (· + ·) 0
  parts.flatMap (SetPart.chars (length - known))

/-- What a character is exchanged for; the last one of the new characters stands for all that follow. -/
def exchange (table : List (Char × Char)) (c : Char) : Char :=
  (table.lookup c).getD c

/-- The characters without those of a set that repeat the one before. -/
def squeeze (isIn : Char → Bool) (before? : Option Char) : List Char → List Char
  | [] => []
  | c :: rest => if before? = some c && isIn c then squeeze isIn before? rest else c :: squeeze isIn (some c) rest

/-- The pairs of old and new characters. The last pair for a character counts. -/
def exchangeTable (old new : List Char) : List (Char × Char) :=
  let filled := new ++ List.replicate (old.length - new.length) (new.getLastD '\x00')
  (old.zip filled).reverse

/-- Exchange, remove or squeeze the characters of the input. -/
def exchangeInput (name : String) (given : Given) (first : List SetPart) (second? : Option (List SetPart)) (s : State) :
    State :=
  match readDescriptor 0 s with
  | .error fault => refuse name ("read error: " ++ fault.reason) 1 s
  | .ok (bytes, s) =>
    let text := (Text.octets bytes).toList
    let own := charsOf 0 first
    let own := if given.has 'c' || given.has 'C' then allBytes.filter fun c => !own.contains c else own
    let new := second?.map (charsOf own.length)
    let removed := if given.has 'd' then text.filter fun c => !own.contains c else text
    let exchanged := match given.has 'd', new with
      | false, some new =>
        let own := if given.has 't' then own.take new.length else own
        removed.map (exchange (exchangeTable own new))
      | _, _ => removed
    let squeezed := if given.has 's' then squeeze (fun c => (new.getD own).contains c) none exchanged else exchanged
    writeText name squeezed s

/-- What is wrong with the number of operands. -/
def operandFault? (given : Given) : Option String :=
  let least := if given.has 'd' == given.has 's' then 2 else 1
  let most := if given.has 'd' && !given.has 's' then 1 else 2
  match given.operands with
  | [] => some "missing operand"
  | [first] =>
    if least ≤ 1 then none
    else some ("missing operand after " ++ Quoting.plain first ++ "\nTwo strings must be given when " ++
      (if given.has 'd' then "both deleting and squeezing repeats." else "translating."))
  | operands =>
    if operands.length ≤ most then none
    else
      let extra := "extra operand " ++ Quoting.plain (operands.getD most "")
      some (if most = 1 && operands.length = 2
        then extra ++ "\nOnly one string may be given when deleting without squeezing repeats." else extra)

/-- Exchange characters, remove them, or keep only one of those that follow each other. -/
def tr : Utility := fun name arguments s =>
  let forms := [flag 'c' "complement", flag 'C' "", flag 'd' "delete", flag 's' "squeeze-repeats",
    flag 't' "truncate-set1"]
  match readOptions forms false (arguments.length + 1) arguments with
  | .error message => misuse name message s
  | .ok given =>
    match operandFault? given with
    | some message => misuse name message s
    | none =>
      let endsOpen (text : String) : Bool := (text.toList.reverse.takeWhile (· == '\\')).length % 2 == 1
      let s := if given.operands.any endsOpen
        then s.warn (name ++ ": warning: an unescaped backslash at end of string is not portable\n") else s
      match given.operands.mapM readSet with
      | .error fault => refuse name fault.message 1 s
      | .ok sets =>
        let first := sets.headD []
        let second? := sets[1]?
        let translates := !given.has 'd' && second?.isSome
        if translates && second?.any List.isEmpty && !first.isEmpty then
          refuse name "when not truncating set1, string2 must be non-empty" 1 s
        else exchangeInput name given first second? (s.ended 0)

end Utility

end Shell

end Rulebook

import Rulebook.Shell.Step

/-!
# Builtins for the working directory

This module provides `Builtin.cd` and `Builtin.pwd`, and `Builtin.umask` for the rights of new files.

The working directory is known by the path that led there, links and all.
-/

namespace Rulebook

namespace Shell

namespace Builtin

/-- The names of a path after others, the last one first, with `.` and `..` taken for what they mean. -/
def plainNames (reversed : List String) : List String → List String
  | [] => reversed.reverse
  | "." :: rest => plainNames reversed rest
  | ".." :: rest => plainNames (reversed.drop 1) rest
  | name :: rest => plainNames (name :: reversed) rest

/-- A path taken from a directory, without `.` and `..`. -/
def plainPath (directory path : String) : String :=
  let whole := if path.startsWith "/" then path else directory ++ "/" ++ path
  "/" ++ String.intercalate "/" (plainNames [] (FileSystem.parts whole))

/-- The path of a location. -/
def locationPath (location : Location) : String :=
  "/" ++ String.intercalate "/" (location.map Text.toOctets)

/-- The state with a working directory, known by a path; the path is the location itself if it is `physical`. -/
def enterDirectory? (s : State) (physical : Bool) (path : String) : Option State :=
  let path := if physical then path else plainPath s.directory path
  match s.files.locate (State.path path) false with
  | .error _ => none
  | .ok location =>
    if !s.files.isDirectory (State.path path) then none
    else
      let directory := if physical then locationPath location else path
      let exported (s : State) (name value : String) : State := s.bind name (some ⟨some value, true, false⟩)
      let s := exported (exported s "OLDPWD" s.directory) "PWD" directory
      some { s with directory := directory, files := { s.files with here := location } }

/-- Does a path say itself where it starts? -/
def isAnchored (path : String) : Bool :=
  match FileSystem.parts path with
  | first :: _ => path.startsWith "/" || first == "." || first == ".."
  | [] => true

/-- Change the working directory. -/
def cd : Builtin := fun arguments s =>
  withOptions "LP" arguments s fun options operands s =>
    let physical := options.getLast?.any fun option => option.1 == 'P'
    let (target, shows) := match operands with
      | [] => ((s.value? "HOME").getD "", false)
      | "-" :: _ => ((s.value? "OLDPWD").getD "", true)
      | operand :: _ => (operand, false)
    let places := if isAnchored target then []
      else ((s.value? "CDPATH").getD "").splitOn ":" |>.map fun place =>
        (if place.isEmpty then target else place ++ "/" ++ target, !place.isEmpty)
    let candidates := places ++ [(if target.isEmpty then "." else target, false)]
    match candidates.findSome? fun (path, isShown) => (enterDirectory? s physical path).map (·, isShown) with
    | some (s, isShown) =>
      .next (if shows || isShown then s.printText (s.directory ++ "\n") else s.ended 0)
    | none => .fail ("can't cd to " ++ target) s

/-- Write the path of the working directory. -/
def pwd : Builtin := fun arguments s =>
  withOptions "LP" arguments s fun options _ s =>
    let physical := options.getLast?.any fun option => option.1 == 'P'
    .next (s.printText ((if physical then locationPath s.files.here else s.directory) ++ "\n"))

/-! ## Rights -/

/-- The rights that three bits stand for, as letters. -/
def rights (bits : Nat) : String :=
  String.join ([(4, "r"), (2, "w"), (1, "x")].map fun (bit, letter) => if bits / bit % 2 = 1 then letter else "")

/-- Rights in letters, for the owner, the group and the others. -/
def shownRights (mask : Nat) : String :=
  let part (letter : String) (bits : Nat) : String := letter ++ "=" ++ rights (7 - bits % 8)
  String.intercalate "," [part "u" (mask / 64), part "g" (mask / 8), part "o" mask]

/-- A number in digits to base eight. -/
def octalText (n : Nat) : String :=
  String.join ([512, 64, 8, 1].map fun unit => toString (n / unit % 8))

/-- The mask after a change in letters: who, an operator, and rights; nothing if it is none. -/
def changedMask? (mask : Nat) (change : List Char) : Option Nat :=
  let who := change.takeWhile "ugoa".toList.contains
  let factors := if who.isEmpty ∨ who.contains 'a' then [64, 8, 1]
    else
      let named := [('u', 64), ('g', 8), ('o', 1)].filter fun entry => who.contains entry.1
      named.map Prod.snd
  match change.drop who.length with
  | operator :: letters =>
    if !letters.all "rwx".toList.contains then none
    else
      let bits := ([('r', 4), ('w', 2), ('x', 1)].filter fun entry => letters.contains entry.1).map Prod.snd
      let given := bits.foldl (· + ·) 0
      let allowed (old : Nat) : Option Nat :=
        match operator with
        | '=' => some given
        | '+' => some (old ||| given)
        | '-' => some (old &&& (7 - given))
        | _ => none
      factors.foldlM (fun mask factor =>
        let old := mask / factor % 8
        (allowed (7 - old)).map fun new => mask - old * factor + (7 - new) * factor) mask
  | [] => none

/-- Write or set the rights that new files do not get. -/
def umask : Builtin := fun arguments s =>
  withOptions "S" arguments s fun options operands s =>
    match operands with
    | [] =>
      .next (s.printText ((if options.isEmpty then octalText s.mask else shownRights s.mask) ++ "\n"))
    | text :: _ =>
      match text.toList with
      | c :: rest =>
        if c.isDigit then
          if (c :: rest).all fun d => '0' ≤ d ∧ d ≤ '7' then
            .next { s.ended 0 with mask := (c :: rest).foldl (fun n d => 8 * n + (d.toNat - '0'.toNat)) 0 % 512 }
          else .fail ("Illegal number: " ++ text) s
        else
          match (text.splitOn ",").foldlM (fun mask change => changedMask? mask change.toList) s.mask with
          | some mask => .next { s.ended 0 with mask := mask }
          | none => .fail ("Illegal mode: " ++ text) s
      | [] => .next (s.ended 0)

end Builtin

end Shell

end Rulebook

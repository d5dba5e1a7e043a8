import Rulebook.Shell.Source

/-!
# Reading scripts

A script is read line by line, since a line is run before what follows it is looked at. This module provides
`Shell.readLine?`, the command on the next line of a script — with as many further lines as belong to it — and the
rest of the script.

A name that stands for another text gives way to it where a command can start.

The reading functions take a number that bounds how deep they call each other. Each call takes a character, a token or
goes one level down in the grammar, so a bound in proportion to the length of the script, with the texts that names in
it stand for, never runs out.
-/

namespace Rulebook

namespace Shell

open Reader

/-! ## Words -/

/-- What the characters of a word stand in. -/
inductive Surrounding where
  /-- Nothing: a blank or an operator ends the word. -/
  | nothing
  /-- The same, in the word that ends a here-document: a dollar sign means nothing. -/
  | ending
  | quotes
  | document
  /-- Braces after a dollar sign; inside quotes they are quoted as well. -/
  | braces (quoted : Bool)
  /-- An expression, inside parentheses. -/
  | expression (depth : Nat)
deriving DecidableEq

/-- Is text quoted there? -/
def Surrounding.isQuoted : Surrounding → Bool
  | .nothing => false
  | .ending => false
  | .quotes => true
  | .document => true
  | .braces quoted => quoted
  | .expression _ => true

/-- A character that ends a word. -/
def endsWord (c : Char) : Bool :=
  " \t\n;&|<>()".toList.contains c

/-- A character that always stands for itself there. -/
def Surrounding.isOrdinary (surrounding : Surrounding) (c : Char) : Bool :=
  c.isAlphanum || "_-./,:=+%@^~!*?[]#\x7b".toList.contains c ||
    (surrounding.isQuoted && " ;&|<>".toList.contains c)

/-- Text after the parts read so far, the last one first. -/
def addText (text : String) (quoted : Bool) : List Part → List Part
  | .text before old :: more =>
    if old = quoted then .text (before ++ text) quoted :: more else .text text quoted :: .text before old :: more
  | parts => .text text quoted :: parts

/-- Does a backslash before the character take its meaning away inside quotes? -/
def isEscapable (surrounding : Surrounding) (c : Char) : Bool :=
  c == '\\' || c == '\x60' || c == '$' || (c == '"' && surrounding != .document) ||
    (c == '\x7d' && surrounding == .braces true)

/-- What a backslash and the character after it add to a word. -/
def addEscaped (surrounding : Surrounding) (parts : List Part) : Reader (List Part) := do
  match ← takeRaw with
  | none => return addText "\\" true parts
  | some c =>
    let text := if surrounding.isQuoted && !isEscapable surrounding c then "\\" else ""
    return addText (text.push c) true parts

/-- The text up to the next single quote. -/
def readSingle : Reader String := fun source =>
  let text := source.rest.takeWhile (· ≠ '\'')
  let line := source.line + countLineEnds text
  match source.rest.drop text.length with
  | [] => .error ⟨line, "Unterminated quoted string"⟩
  | _ :: after => .ok (String.ofList text, { source with rest := after, line := line })

/-- The form and its name in braces, up to the word; the flag tells that there is a word and a closing brace to come. -/
def readForm : Reader (String × Form × Bool) := do
  let colon (c : Option Char) (empty : Bool) : Form × Bool :=
    match c with
    | some '-' => (.otherwise empty, true)
    | some '+' => (.instead empty, true)
    | some '=' => (.assigned empty, true)
    | some '?' => (.required empty, true)
    | some '\x7d' => if empty then (.bad, true) else (.plain, false)
    | _ => (.bad, true)
  let operator (name : String) : Reader (String × Form × Bool) := do
    match ← takeUncounted with
    | some ':' =>
      let (form, more) := colon (← takeUncounted) true
      return (name, form, more)
    | some '%' => return (name, .trimmed true (← takeIf '%'), true)
    | some '#' => return (name, .trimmed false (← takeIf '#'), true)
    | c =>
      let (form, more) := colon c false
      return (name, form, more)
  let lengthOf (name : String) : Reader (String × Form × Bool) := do
    return (name, if (← peek) = some '\x7d' then .length else .bad, true)
  match ← peek with
  | none => return ("", .bad, true)
  | some c =>
    if isNameStart c then operator (← takeAll isNameChar)
    else if c.isDigit then operator (← takeAll Char.isDigit)
    else if c = '\x7d' then return ("", .bad, true)
    else
      let _ ← takeUncounted
      if c ≠ '#' then
        if isSpecial c then operator c.toString else return ("", .bad, true)
      else
        match ← peek with
        | none => operator "#"
        | some d =>
          if isNameStart d then lengthOf (← takeAll isNameChar)
          else if d.isDigit then lengthOf (← takeAll Char.isDigit)
          else if d = '\x7d' then operator "#"
          else
            let saved ← get
            let _ ← take
            if (← peek) = some '\x7d' then
              if isSpecial d then return (d.toString, .length, true) else return ("", .bad, true)
            else
              set saved
              operator "#"

/-- The characters up to the next backquote. A backslash takes the meaning of a backquote, of another backslash, of a
dollar sign and, inside quotes, of a double quote away. -/
def readBackquoted (quoted : Bool) (reversed : List Char) : (fuel : Nat) → Reader (List Char)
  | 0 => fail "EOF in backquote substitution"
  | fuel + 1 => do
    match ← take with
    | none => fail "EOF in backquote substitution"
    | some '\x60' => return reversed.reverse
    | some '\\' =>
      match ← takeRaw with
      | none => fail "EOF in backquote substitution"
      | some c =>
        if "\\\x60$".toList.contains c || (quoted && c == '"') then readBackquoted quoted (c :: reversed) fuel
        else readBackquoted quoted (c :: '\\' :: reversed) fuel
    | some c => readBackquoted quoted (c :: reversed) fuel

/-- The digit before a redirection that the word is, and the descriptor that the operator has without one. -/
def descriptor? (parts : List Part) (default : Nat) : Option Nat :=
  match parts with
  | [] => some default
  | [.text text false] =>
    match text.toList with
    | [c] => if c.isDigit then some (c.toNat - '0'.toNat) else none
    | _ => none
  | _ => none

/-- A redirection, if its operator stands after the word. -/
def readRedirection? (parts : List Part) : Reader (Option Token) := do
  match ← peek with
  | some '>' =>
    match descriptor? parts 1 with
    | none => return none
    | some descriptor =>
      let _ ← take
      let access ←
        if ← takeIf '>' then pure Access.append
        else if ← takeIf '|' then pure Access.overwrite
        else if ← takeIf '&' then pure Access.duplicate
        else pure Access.write
      return some (.redirection descriptor access false)
  | some '<' =>
    match descriptor? parts 0 with
    | none => return none
    | some descriptor =>
      let _ ← take
      if ← takeIf '<' then return some (.redirection descriptor (.document 0) (← takeIf '-'))
      else
        let access ←
          if ← takeIf '&' then pure Access.duplicate
          else if ← takeIf '>' then pure Access.readWrite
          else pure Access.read
        return some (.redirection descriptor access false)
  | _ => return none

/-- The operator that starts with a character, and is that character twice if it stands there twice. -/
def readSymbol (c : Char) (canDouble : Bool) : Reader Token := do
  let _ ← take
  let doubled ← if canDouble then takeIf c else pure false
  found (.symbol (String.ofList (if doubled then [c, c] else [c])))

/-- The keyword that a token is where keywords count. -/
def asKeyword (token : Token) : Token :=
  match token with
  | .word word =>
    match word.plain? with
    | some text => if keywords.contains text then .keyword text else token
    | none => token
  | _ => token

/-- Is the word in the parts `"$@"` without anything else, so that it may stand for nothing at all? -/
def isAllArguments : List Part → Bool
  | [.parameter "@" .plain _ true] => true
  | _ => false

/-- The parts of quoted text; being quoted, it is a word even if it is empty. -/
def addQuoted (inner parts : List Part) : List Part :=
  if isAllArguments inner then inner ++ parts
  else inner.reverse.foldl (fun parts part =>
    match part with
    | .text text quoted => addText text quoted parts
    | part => part :: parts) (addText "" true parts)

/-- A fault in the body of a here-document, which is found at the end of it. There are no quotes around a body that
could be left open, and the line that ends it, if there is one, has been read. -/
def inDocument (isEnded : Bool) (fault : Fault) : Fault :=
  let reason := if fault.reason = "Unterminated quoted string" then "Missing '\x7d'" else fault.reason
  if reason.startsWith "Missing" && isEnded then ⟨fault.line + 1, reason⟩ else ⟨fault.line, reason⟩

/-! ## The grammar -/

mutual

/-- The parts of a word up to what ends it, after `parts`, the last one first. What closes quotes, braces and
expressions is taken as well. -/
def readParts : (fuel : Nat) → Surrounding → (parts : List Part) → Reader (List Part)
  | 0, _, _ => fail "word too long"
  | fuel + 1, surrounding, parts => do
    let quoted := surrounding.isQuoted
    match ← peek with
    | none =>
      match surrounding with
      | .quotes => fail "Unterminated quoted string"
      | .braces true => fail "Unterminated quoted string"
      | .braces false => fail "Missing '\x7d'"
      | .expression _ => fail "Missing '))'"
      | _ => return parts
    | some c =>
      if (surrounding == .nothing || surrounding == .ending) && endsWord c then return parts
      else
        let _ ← takeRaw
        let literal : Reader (List Part) := do
          let text := c.toString ++ (← takeRun surrounding.isOrdinary)
          readParts fuel surrounding (addText text quoted parts)
        if c = '\\' then readParts fuel surrounding (← addEscaped surrounding parts)
        else if c = '$' ∧ surrounding ≠ .ending then
          readParts fuel surrounding (← readDollar fuel surrounding parts)
        else if c = '\x60' ∧ surrounding ≠ .ending then
          let text ← readBackquoted quoted [] ((← get).rest.length + 1)
          let command ← readInner fuel (String.ofList text)
          readParts fuel surrounding (.output command quoted :: parts)
        else
          match surrounding, c with
          | .quotes, '"' => return parts
          | .braces _, '\x7d' => return parts
          | .braces true, '"' =>
            let inner ← readParts fuel .quotes []
            readParts fuel surrounding (addQuoted inner parts)
          | .expression depth, '(' => readParts fuel (.expression (depth + 1)) (addText "(" true parts)
          | .expression 0, ')' => if ← takeIf ')' then return parts else literal
          | .expression (depth + 1), ')' => readParts fuel (.expression depth) (addText ")" true parts)
          | _, '"' =>
            if quoted then literal
            else
              let inner ← readParts fuel .quotes []
              readParts fuel surrounding (addQuoted inner parts)
          | _, '\'' =>
            if quoted then literal
            else readParts fuel surrounding (addText (← readSingle) true parts)
          | _, _ => literal

/-- What a dollar sign starts. -/
def readDollar : (fuel : Nat) → Surrounding → (parts : List Part) → Reader (List Part)
  | 0, _, _ => fail "word too long"
  | fuel + 1, surrounding, parts => do
    let quoted := surrounding.isQuoted
    match ← peek with
    | none => return addText "$" quoted parts
    | some c =>
      if c = '(' then
        let _ ← take
        if ← takeIf '(' then
          let expression ← readParts fuel (.expression 0) []
          return .arithmetic expression.reverse quoted :: parts
        else return .output (← readSubstitution fuel) quoted :: parts
      else if c = '\x7b' then
        let _ ← take
        let (name, form, more) ← readForm
        if !more then return .parameter name form [] quoted :: parts
        else
          let trims := match form with
            | .trimmed _ _ => true
            | _ => false
          let word ← readParts fuel (.braces (quoted && !trims)) []
          return .parameter name form word.reverse quoted :: parts
      else if isNameStart c then return .parameter (← takeAll isNameChar) .plain [] quoted :: parts
      else if isSpecial c then
        let _ ← take
        return .parameter c.toString .plain [] quoted :: parts
      else return addText "$" quoted parts

/-- The command after `$(`, up to its closing parenthesis. A here-document whose body has not come by then is empty. -/
def readSubstitution : (fuel : Nat) → Reader Command
  | 0 => fail "word too long"
  | fuel + 1 => do
    let outer := (← get).pending
    modify fun source => { source with pending := [], isPushed := false }
    let command ← readList fuel true true
    if !(← readToken fuel false false).isSymbol ")" then unexpected (some (.symbol ")"))
    modify fun source => { source with pending := outer, isPushed := false }
    return command

/-- The command in a text of its own, whose lines are counted anew. -/
def readInner : (fuel : Nat) → String → Reader Command
  | 0, _ => fail "word too long"
  | fuel + 1, text => fun source =>
    match (readList fuel true true).run (.ofText text source.documents source.aliases) with
    | .error fault => .error fault
    | .ok (command, inner) => .ok (command, { source with documents := inner.documents })

/-- The bodies of the here-documents that are waited for. -/
def readDocuments : (fuel : Nat) → Reader Unit
  | 0 => pure ()
  | fuel + 1 => do
    match (← get).pending with
    | [] => pure ()
    | document :: more =>
      let source ← get
      let (body, rest) := bodyFrom document false [] (source.rest.length + 1) source.rest
      let line := source.line + countLineEnds (source.rest.take (source.rest.length - rest.length))
      set { source with rest := rest, line := line, pending := more }
      if document.isQuoted then setDocument document.number [.text (String.ofList body) true]
      else
        let current ← get
        match (readParts fuel .document []).run { current with rest := body, line := source.line, pending := [] } with
        | .error fault => throw (inDocument (body.length < source.rest.length - rest.length) fault)
        | .ok (parts, inner) =>
          set { current with documents := inner.documents }
          setDocument document.number parts.reverse
      readDocuments fuel

/-- The next token, or the last one if it was pushed back. With `lines`, line ends are passed over; with `keywords`,
keywords count. -/
def readToken : (fuel : Nat) → (lines keywords : Bool) → Reader Token
  | 0, _, _ => fail "word too long"
  | fuel + 1, lines, keywords => do
    let token ← if (← get).isPushed then found (← get).last else readNew fuel false
    match token with
    | .lineEnd =>
      if lines then
        readDocuments fuel
        readToken fuel lines keywords
      else return token
    | token => if keywords then found (asKeyword token) else return token

/-- The next token where a command can start, with names replaced by the texts that they stand for. Elsewhere — where
not `atStart` — that is done only behind a text that ends with a blank. -/
def readStart : (fuel : Nat) → (lines keywords atStart : Bool) → Reader Token
  | 0, _, _, _ => fail "word too long"
  | fuel + 1, lines, keywords, atStart => do
    let earlier ← get
    let token ← readToken fuel lines keywords
    let source ← get
    match if atStart || source.hasLeftBlank earlier then source.replacement? token else none with
    | none => return token
    | some (name, text) =>
      set (source.withReplacement name text)
      readStart fuel lines keywords true

/-- The next token of the script. `ending` tells that it is the word that ends a here-document. -/
def readNew : (fuel : Nat) → (ending : Bool) → Reader Token
  | 0, _ => fail "word too long"
  | fuel + 1, ending => do
    match ← peek with
    | none => found .scriptEnd
    | some c =>
      if c = ' ' ∨ c = '\t' then
        let _ ← take
        readNew fuel ending
      else if c = '#' then
        modify fun source => { source with rest := source.rest.dropWhile (· ≠ '\n') }
        readNew fuel ending
      else if c = '\n' then
        let _ ← take
        found .lineEnd
      else if c = '&' ∨ c = '|' ∨ c = ';' then readSymbol c true
      else if c = '(' ∨ c = ')' then readSymbol c false
      else
        let parts ← readParts fuel (if ending then .ending else .nothing) []
        match ← readRedirection? parts with
        | some token => found token
        | none => found (.word parts.reverse)

/-- Commands one after the other. With `lines`, they may stand on several lines; otherwise a line end ends them. With
`mayEnd`, a token that ends a list may stand here. -/
def readList : (fuel : Nat) → (lines mayEnd : Bool) → Reader Command
  | 0, _, _ => fail "word too long"
  | fuel + 1, lines, mayEnd => do
    let token ← readStart fuel lines true true
    match token with
    | .lineEnd =>
      readDocuments fuel
      return .nothing
    | .scriptEnd =>
      readDocuments fuel
      pushBack
      return .nothing
    | _ =>
      pushBack
      if lines && mayEnd && token.endsList then return .nothing
      else
        let line := (← get).line
        let command ← readAndOr fuel
        let token ← readToken fuel false false
        let command := if token.isSymbol "&" then .background line command else command
        match token with
        | .scriptEnd =>
          readDocuments fuel
          pushBack
          return command
        | .lineEnd =>
          pushBack
          readMore fuel lines command
        | _ =>
          if token.isSymbol "&" || token.isSymbol ";" then readMore fuel lines command
          else if !lines then unexpected none
          else
            pushBack
            return command

/-- A command and those that follow it in a list. -/
def readMore : (fuel : Nat) → (lines : Bool) → Command → Reader Command
  | 0, _, _ => fail "word too long"
  | fuel + 1, lines, first => do
    match ← readList fuel lines true with
    | .nothing => return first
    | more => return .sequence first more

/-- Pipelines joined by `&&` and `||`. -/
def readAndOr : (fuel : Nat) → Reader Command
  | 0 => fail "word too long"
  | fuel + 1 => do
    let first ← readPipeline fuel false
    readAndOrMore fuel first

/-- What `&&` and `||` join to a command. -/
def readAndOrMore : (fuel : Nat) → Command → Reader Command
  | 0, _ => fail "word too long"
  | fuel + 1, first => do
    let token ← readToken fuel false false
    if token.isSymbol "&&" then
      let second ← readPipeline fuel true
      readAndOrMore fuel (.both first second)
    else if token.isSymbol "||" then
      let second ← readPipeline fuel true
      readAndOrMore fuel (.either first second)
    else
      pushBack
      return first

/-- Commands joined by `|`, after an exclamation mark or not. -/
def readPipeline : (fuel : Nat) → (lines : Bool) → Reader Command
  | 0, _ => fail "word too long"
  | fuel + 1, lines => do
    let negated := (← readStart fuel lines true true).isKeyword "!"
    if !negated then pushBack
    let first ← readCommand fuel false
    let stages ← readStages fuel
    let command := if stages.isEmpty then first else .pipeline (first :: stages)
    return if negated then .negated command else command

/-- The further commands of a pipeline. -/
def readStages : (fuel : Nat) → Reader (List Command)
  | 0 => fail "word too long"
  | fuel + 1 => do
    if (← readToken fuel false false).isSymbol "|" then
      let command ← readCommand fuel true
      return command :: (← readStages fuel)
    else
      pushBack
      return []

/-- A single command with its redirections. -/
def readCommand : (fuel : Nat) → (lines : Bool) → Reader Command
  | 0, _ => fail "word too long"
  | fuel + 1, lines => do
    let line := (← get).line
    let close (wanted : Token) (isWanted : Token → Bool) : Reader Unit := do
      if !isWanted (← readToken fuel false false) then unexpected (some wanted)
    let keyword (text : String) : Reader Unit := close (.keyword text) (·.isKeyword text)
    match ← readStart fuel lines true true with
    | .keyword "if" => readRest fuel line (← readBranch fuel)
    | .keyword "while" => readRest fuel line (← readLoop fuel false)
    | .keyword "until" => readRest fuel line (← readLoop fuel true)
    | .keyword "for" => readRest fuel line (← readEach fuel line)
    | .keyword "case" => readRest fuel line (← readChoose fuel line)
    | .keyword "\x7b" =>
      let body ← readList fuel true false
      keyword "\x7d"
      readRest fuel line body
    | .symbol "(" =>
      let body ← readList fuel true false
      close (.symbol ")") (·.isSymbol ")")
      let redirections ← readRedirections fuel
      return .subshell line body redirections
    | .word _ =>
      pushBack
      readSimple fuel (← get).line [] [] [] true
    | .redirection _ _ _ =>
      pushBack
      readSimple fuel (← get).line [] [] [] true
    | _ => unexpected none

/-- The command with the redirections that stand here. -/
def readRest : (fuel : Nat) → (line : Nat) → Command → Reader Command
  | 0, _, _ => fail "word too long"
  | fuel + 1, line, command => do
    match ← readRedirections fuel with
    | [] => return command
    | redirections => return .redirected line command redirections

/-- The redirections that stand here. -/
def readRedirections : (fuel : Nat) → Reader (List Redirection)
  | 0 => fail "word too long"
  | fuel + 1 => do
    match ← readStart fuel false true true with
    | .redirection descriptor access stripTabs =>
      let redirection ← readTarget fuel descriptor access stripTabs
      return redirection :: (← readRedirections fuel)
    | _ =>
      pushBack
      return []

/-- The word after the operator of a redirection. -/
def readTarget : (fuel : Nat) → Nat → Access → (stripTabs : Bool) → Reader Redirection
  | 0, _, _, _ => fail "word too long"
  | fuel + 1, descriptor, access, stripTabs => do
    match access with
    | .document _ =>
      match ← readNew fuel true with
      | .word ending => return .mk descriptor (.document (← addDocument ending stripTabs)) []
      | _ => unexpected none
    | _ =>
      match ← readToken fuel false false with
      | .word word => return .mk descriptor access word
      | _ => unexpected none

/-- The condition and the branches after `if` or `elif`, with the word that closes them all. -/
def readBranch : (fuel : Nat) → Reader Command
  | 0 => fail "word too long"
  | fuel + 1 => do
    let condition ← readList fuel true false
    if !(← readToken fuel false false).isKeyword "then" then unexpected (some (.keyword "then"))
    let yes ← readList fuel true false
    let token ← readToken fuel false false
    if token.isKeyword "elif" then return .branch condition yes (← readBranch fuel)
    else
      let no ← if token.isKeyword "else" then readList fuel true false
        else do
          pushBack
          pure .nothing
      if !(← readToken fuel false false).isKeyword "fi" then unexpected (some (.keyword "fi"))
      return .branch condition yes no

/-- The condition and the body of a loop. -/
def readLoop : (fuel : Nat) → (whileFails : Bool) → Reader Command
  | 0, _ => fail "word too long"
  | fuel + 1, whileFails => do
    let condition ← readList fuel true false
    if !(← readToken fuel false false).isKeyword "do" then unexpected (some (.keyword "do"))
    let body ← readList fuel true false
    if !(← readToken fuel false false).isKeyword "done" then unexpected (some (.keyword "done"))
    return .loop whileFails condition body

/-- The variable, the words and the body of a loop. -/
def readEach : (fuel : Nat) → (line : Nat) → Reader Command
  | 0, _ => fail "word too long"
  | fuel + 1, line => do
    let name ← match ← readToken fuel false false with
      | .word word => pure ((word.plain?.filter isName).getD "")
      | _ => pure ""
    if name.isEmpty then fail "Bad for loop variable"
    let token ← readStart fuel true true true
    let words ←
      if token.isKeyword "in" then
        let words ← readWords fuel
        match (← get).last with
        | .lineEnd => pure ()
        | last => if !last.isSymbol ";" then unexpected none
        pure words
      else
        if !token.isSymbol ";" then pushBack
        pure [[Part.parameter "@" .plain [] true]]
    if !(← readStart fuel true true true).isKeyword "do" then unexpected (some (.keyword "do"))
    let body ← readList fuel true false
    if !(← readToken fuel false false).isKeyword "done" then unexpected (some (.keyword "done"))
    return .each line name words body

/-- The words that stand here, and one token more. -/
def readWords : (fuel : Nat) → Reader (List Word)
  | 0 => fail "word too long"
  | fuel + 1 => do
    match ← readToken fuel false false with
    | .word word => return word :: (← readWords fuel)
    | _ => return []

/-- The word and the cases after `case`. -/
def readChoose : (fuel : Nat) → (line : Nat) → Reader Command
  | 0, _ => fail "word too long"
  | fuel + 1, line => do
    let word ← match ← readToken fuel false false with
      | .word word => pure word
      | _ => unexpected (some (.word []))
    if !(← readStart fuel true true true).isKeyword "in" then unexpected (some (.keyword "in"))
    return .choose line word (← readCases fuel)

/-- The cases up to `esac`. -/
def readCases : (fuel : Nat) → Reader (List (List Word × Command))
  | 0 => fail "word too long"
  | fuel + 1 => do
    let token ← readToken fuel true true
    if token.isKeyword "esac" then return []
    else
      let token ← if token.isSymbol "(" then readToken fuel false false else pure token
      let patterns ← readPatterns fuel token
      let body ← readList fuel true true
      let token ← readToken fuel true true
      if token.isKeyword "esac" then return [(patterns, body)]
      else if !token.isSymbol ";;" then unexpected (some (.symbol ";;"))
      else return (patterns, body) :: (← readCases fuel)

/-- The patterns of a case, the first of which has been read, and the parenthesis after them. -/
def readPatterns : (fuel : Nat) → (first : Token) → Reader (List Word)
  | 0, _ => fail "word too long"
  | fuel + 1, first => do
    let word : Word := match first with
      | .word word => word
      | .keyword text => [.text text false]
      | _ => []
    let token ← readToken fuel false false
    if token.isSymbol "|" then
      let next ← readToken fuel false false
      return word :: (← readPatterns fuel next)
    else if token.isSymbol ")" then return [word]
    else unexpected (some (.symbol ")"))

/-- A simple command: assignments, words and redirections, in any order but for the assignments; or the definition of a
function. With `atStart`, an assignment may stand here. -/
def readSimple : (fuel : Nat) → (line : Nat) → List (String × Word) → List Word → List Redirection →
    (atStart : Bool) → Reader Command
  | 0, _, _, _, _, _ => fail "word too long"
  | fuel + 1, line, assignments, words, redirections, atStart => do
    let token ← readStart fuel false false atStart
    match token with
    | .word word =>
      match if atStart then word.assignment? else none with
      | some assignment => readSimple fuel line (assignments ++ [assignment]) words redirections true
      | none => readSimple fuel line assignments (words ++ [word]) redirections false
    | .redirection descriptor access stripTabs =>
      let redirection ← readTarget fuel descriptor access stripTabs
      readSimple fuel line assignments words (redirections ++ [redirection]) atStart
    | _ =>
      match token.isSymbol "(", words, assignments, redirections with
      | true, [word], [], [] =>
        if !(← readToken fuel false false).isSymbol ")" then unexpected (some (.symbol ")"))
        match word.plain?.filter fun name => isName name && !specialNames.contains name with
        | none => fail "Bad function name"
        | some name =>
          let start := (← get).line
          return .definition name start (← readCommand fuel true)
      | _, _, _, _ =>
        pushBack
        return .simple line assignments words redirections

end

/-- The command on the next line of a script and the rest of it; nothing if the script ends here. -/
def readLine? (source : Source) : Except Fault (Option (Command × Source)) :=
  let fuel := 16 * source.bound + 64
  let reader : Reader (Option Command) := do
    match ← readStart fuel false true true with
    | .scriptEnd => return none
    | _ =>
      pushBack
      return some (← readList fuel false false)
  match reader.run { source with isPushed := false, pending := [] } with
  | .error fault => .error fault
  | .ok (none, _) => .ok none
  | .ok (some command, rest) => .ok (some (command, rest))

end Shell

end Rulebook

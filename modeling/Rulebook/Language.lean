/-!
# Languages

The languages a rule set can be compiled to. This module provides `Language`, its code, the reading of a code
with and without regard to case, and `Language.others`, the languages besides a given one.
-/

namespace Rulebook

/-- A language of compiled rules. -/
inductive Language where
  | fr
  | enUs
  | es
  | it
deriving DecidableEq, Inhabited, Repr

namespace Language

/-- The code of a language. -/
def code : Language → String
  | .fr => "fr"
  | .enUs => "en-us"
  | .es => "es"
  | .it => "it"

/-- All languages. -/
def all : List Language :=
  [.fr, .enUs, .es, .it]

/-- The language rules are written in unless told otherwise. -/
def defaultSource : Language :=
  .fr

/-- All languages except one. -/
def others (language : Language) : List Language :=
  all.filter (· ≠ language)

/-- The language whose code is the text. -/
def ofCode? (text : String) : Option Language :=
  all.find? fun language => language.code == text

/-- The language whose code is the text up to the case of ASCII letters. -/
def ofCodeAnyCase? (text : String) : Option Language :=
  all.find? fun language => language.code.toList == text.toList.map Char.toLower

/-- What is said about a text that is no language. -/
def unsupported (text : String) : String :=
  "the language '" ++ text ++ "' is not supported"

theorem mem_all (language : Language) : language ∈ all := by
  cases language <;> decide

@[simp] theorem ofCode?_code (language : Language) : ofCode? language.code = some language := by
  cases language <;> decide

end Language

end Rulebook

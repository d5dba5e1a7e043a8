import Rulebook.Language

/-!
# File name templates

A template is a file name in which the placeholder `{lang}` stands for the code of a language. This module
provides `Template.fill`, which puts the code for every occurrence from left to right, and
`Template.hasPlaceholder`.
-/

namespace Rulebook

namespace Template

/-- The characters with `code` in place of each placeholder. -/
def fillChars (code : List Char) : List Char → List Char
  | '\x7b' :: 'l' :: 'a' :: 'n' :: 'g' :: '\x7d' :: rest => code ++ fillChars code rest
  | c :: rest => c :: fillChars code rest
  | [] => []

/-- The file name a template gives for a language. -/
def fill (template : String) (language : Language) : String :=
  String.ofList (fillChars language.code.toList template.toList)

/-- Does a placeholder begin somewhere in the characters? -/
def placeholderIn : List Char → Bool
  | '\x7b' :: 'l' :: 'a' :: 'n' :: 'g' :: '\x7d' :: _ => true
  | _ :: rest => placeholderIn rest
  | [] => false

/-- Does the template hold a placeholder? -/
def hasPlaceholder (template : String) : Bool :=
  placeholderIn template.toList

example : fill "\x7b\x7blang\x7d\x7blang\x7d\x7d" .fr = "\x7bfrfr\x7d" := by decide +kernel

end Template

end Rulebook

/-
**TOML documents.** A document here is a flat table: one `key = value` line for each entry, where
a value is a string, an integer, a boolean or an array of strings on one line.

A string has four styles: basic in double quotes with escapes, literal in single quotes without
any, and a multi-line form of each in triple quotes. A string is written in the plainest style that
needs no escape: basic if it has no quote, backslash or line feed, else literal, else a multi-line
form if the quotes in it permit, and with escapes only if nothing else is left. A multi-line form
of a string with a line feed opens with a line feed, which readers drop.
-/

namespace Edid.Toml

/-! ### Styles -/

/-- A way to write a string. -/
inductive Style where
  | basic
  | literal
  | multilineBasic
  | multilineLiteral
deriving DecidableEq

/-- Whether a character can only be written as an escape: a control character other than tab and
line feed. -/
def needsEscape (character : Char) : Bool :=
  decide (character.toNat < 0x20 ∧ character ≠ '\t' ∧ character ≠ '\n' ∨ character.toNat = 0x7F)

/-- The length of the longest run of a character, given the length of the run that is under way
and that of the longest one before. -/
def longestRunFrom (mark : Char) (current longest : Nat) : List Char → Nat
  | [] => max current longest
  | character :: rest =>
      if character = mark then longestRunFrom mark (current + 1) longest rest
      else longestRunFrom mark 0 (max current longest) rest

/-- The length of the longest run of a character in a text. -/
def longestRun (mark : Char) (text : List Char) : Nat := longestRunFrom mark 0 0 text

def style (text : List Char) : Style :=
  let plain := !text.any needsEscape
  let oneLine := !text.contains '\n'
  let straight := !text.contains '\\'
  if plain && straight && oneLine && !text.contains '"' then .basic
  else if plain && oneLine && !text.contains '\'' then .literal
  else if plain && straight && decide (longestRun '"' text ≤ 2) then .multilineBasic
  else if plain && decide (longestRun '\'' text ≤ 2) then .multilineLiteral
  else if oneLine then .basic
  else .multilineBasic

/-! ### Strings -/

/-- The escape of a character by its number, in four uppercase hexadecimal digits. -/
def numericEscape (character : Char) : List Char :=
  let digits := (Nat.toDigits 16 character.toNat).map Char.toUpper
  ['\\', 'u'] ++ List.replicate (4 - digits.length) '0' ++ digits

/-- A character other than a quote inside a basic string. -/
def basicCharacter (multiline : Bool) (character : Char) : List Char :=
  if character = '\x08' then ['\\', 'b']
  else if character = '\t' then ['\\', 't']
  else if character = '\n' then if multiline then ['\n'] else ['\\', 'n']
  else if character = '\x0c' then ['\\', 'f']
  else if character = '\r' then ['\\', 'r']
  else if character = '\\' then ['\\', '\\']
  else if needsEscape character then numericEscape character
  else [character]

/-- The inside of a basic string. A quote is escaped on one line; over several lines only the
third one of a row is, where `quotes` counts those that stand unescaped before. -/
def basicBody (multiline : Bool) (quotes : Nat) : List Char → List Char
  | [] => []
  | character :: rest =>
      if character = '"' then
        if multiline && decide (quotes < 2) then '"' :: basicBody multiline (quotes + 1) rest
        else ['\\', '"'] ++ basicBody multiline 0 rest
      else basicCharacter multiline character ++ basicBody multiline 0 rest

/-- The line feed after the opening quotes of a multi-line string that has one itself. -/
def opening (text : List Char) : List Char := if text.contains '\n' then ['\n'] else []

def written (text : List Char) : Style → List Char
  | .basic => ['"'] ++ basicBody false 0 text ++ ['"']
  | .literal => ['\''] ++ text ++ ['\'']
  | .multilineBasic =>
      ['"', '"', '"'] ++ opening text ++ basicBody true 0 text ++ ['"', '"', '"']
  | .multilineLiteral => ['\'', '\'', '\''] ++ opening text ++ text ++ ['\'', '\'', '\'']

def quoted (text : String) : String :=
  String.ofList (written text.toList (style text.toList))

/-! ### Documents -/

/-- A value of an entry. -/
inductive Value where
  | string (text : String)
  | integer (number : Int)
  | boolean (truth : Bool)
  | strings (texts : List String)

def Value.text : Value → String
  | string text => quoted text
  | integer number => toString number
  | boolean truth => if truth then "true" else "false"
  | strings texts => "[" ++ ", ".intercalate (texts.map quoted) ++ "]"

def entry (key : String) (value : Value) : String := key ++ " = " ++ value.text ++ "\n"

def document (entries : List (String × Value)) : String :=
  String.join (entries.map fun (key, value) => entry key value)

end Edid.Toml

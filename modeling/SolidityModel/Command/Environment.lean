import SolidityModel.NameMap
import SolidityModel.Text.Alphanumeric
import SolidityModel.Text.Blank

/-!
# Environment files

A file of lines `NAME=value` sets variables that the environment does not set
already.  Values may stand between apostrophes, which take everything as it is, or
between quotes, which know escapes, and both may go on over several lines.
Outside apostrophes a dollar sign and a name of letters and digits, or any name
between braces, stand for the value of a variable.  The first line that cannot be
read ends the file; what the lines before it set stays.
-/

namespace SolidityModel

namespace EnvFile

/-- How far the text of an entry has got. -/
inductive LineState where
  | plain
  /-- White space has come, after which a comment may begin. -/
  | afterBlank
  | escape
  | inQuotes
  | escapeInQuotes
  | inApostrophes
  | escapeInApostrophes
  deriving DecidableEq

/-- What a character that no quotes enclose leads to. -/
def openState (other : LineState) : Char → LineState
  | '\\' => .escape
  | '"' => .inQuotes
  | '\'' => .inApostrophes
  | _ => other

/-- What a character leads to. -/
def nextState (char : Char) : LineState → LineState
  | .plain =>
      if Text.isBlank char && char ≠ '\n' && char ≠ '\r' then .afterBlank
      else openState .plain char
  | .afterBlank => openState .plain char
  | .escape => .plain
  | .inQuotes =>
      if char = '\\' then .escapeInQuotes else if char = '"' then .plain else .inQuotes
  | .escapeInQuotes => .inQuotes
  | .inApostrophes =>
      if char = '\\' then .escapeInApostrophes
      else if char = '\'' then .plain
      else .inApostrophes
  | .escapeInApostrophes => .inApostrophes

/-- The part of a line before a comment, and the state at its end, which is absent
if there is a comment. -/
def scanLine (state : LineState) : List Char → List Char × Option LineState
  | [] => ([], some state)
  | char :: rest =>
      if state = .afterBlank ∧ char = '#' then ([], none)
      else
        let (kept, final) := scanLine (nextState char state) rest
        (char :: kept, final)

/-- The lines of a text, each with its line break. -/
def lines : List Char → List (List Char)
  | [] => []
  | '\n' :: rest => ['\n'] :: lines rest
  | char :: rest =>
      match lines rest with
      | [] => [[char]]
      | line :: more => (char :: line) :: more

/-- A line without its line break. -/
def withoutBreak (line : List Char) : List Char :=
  match line.reverse with
  | '\n' :: '\r' :: rest => rest.reverse
  | '\n' :: rest => rest.reverse
  | _ => line

/-- Whether the first character that is not blank begins a comment. -/
def isComment (line : List Char) : Bool :=
  (line.dropWhile Text.isBlank).head? = some '#'

/-- The entries of a file, of which one may take several lines.  An entry that the
end of the file cuts off is missing. -/
def entries (pending : List Char) (state : LineState) :
    List (List Char) → List (Option (List Char))
  | [] => if pending.isEmpty then [] else [none]
  | line :: rest =>
      if isComment (pending ++ line) then entries [] .plain rest
      else
        match scanLine state line with
        | (kept, none) => some (pending ++ kept) :: entries [] .plain rest
        | (_, some .plain) => some (withoutBreak (pending ++ line)) :: entries [] .plain rest
        | (_, some state) => entries (pending ++ line) state rest

/-- How far the text of a value has got. -/
inductive ValueState where
  /-- Outside apostrophes, and between quotes or not. -/
  | base (quoted : Bool)
  | inApostrophes
  | escape (quoted : Bool)
  /-- In a name after a dollar sign. -/
  | name (quoted : Bool) (name : List Char)
  /-- In a name between braces. -/
  | bracedName (quoted : Bool) (name : List Char)
  /-- After the value, where only a comment may follow. -/
  | ended
  deriving DecidableEq

/-- The character that an escape stands for. -/
def escaped? (char : Char) : Option Char :=
  if ['\\', '\'', '"', '$', ' '].contains char then some char
  else if char = 'n' then some '\n'
  else none

/-- A part of a value: a character, or the name of a variable whose value stands
in its place. -/
inductive Piece where
  | char (char : Char)
  | reference (name : List Char)
  deriving DecidableEq

/-- The value that a text writes, in its pieces. -/
def value? : ValueState → List Char → Option (List Piece)
  | .base quoted, [] => if quoted then none else some []
  | .inApostrophes, [] => none
  | .escape quoted, [] => if quoted then none else some []
  | .name quoted name, [] => if quoted then none else some [.reference name]
  | .bracedName _ _, [] => none
  | .ended, [] => some []
  | .ended, char :: rest =>
      if char = ' ' ∨ char = '\t' then value? .ended rest
      else if char = '#' then some []
      else none
  | .escape quoted, char :: rest =>
      match escaped? char with
      | some char => (value? (.base quoted) rest).map (.char char :: ·)
      | none => none
  | .inApostrophes, char :: rest =>
      if char = '\'' then value? (.base false) rest
      else (value? .inApostrophes rest).map (.char char :: ·)
  | .name quoted name, char :: rest =>
      if Text.isAlphanumeric char then value? (.name quoted (name ++ [char])) rest
      else if char = '\x7b' ∧ name = [] then value? (.bracedName quoted []) rest
      else if char = '$' then (value? (.name quoted []) rest).map (.reference name :: ·)
      else (value? (.base quoted) rest).map (.reference name :: .char char :: ·)
  | .bracedName quoted name, char :: rest =>
      if char = '\x7d' then (value? (.base quoted) rest).map (.reference name :: ·)
      else value? (.bracedName quoted (name ++ [char])) rest
  | .base quoted, char :: rest =>
      if char = '$' then value? (.name quoted []) rest
      else if char = '\\' then value? (.escape quoted) rest
      else if quoted then
        if char = '"' then value? (.base false) rest
        else (value? (.base true) rest).map (.char char :: ·)
      else if char = '\'' then value? .inApostrophes rest
      else if char = '"' then value? (.base true) rest
      else if char = ' ' ∨ char = '\t' then value? .ended rest
      else (value? (.base false) rest).map (.char char :: ·)

/-- Whether a character can stand in a name. -/
def isNameChar (char : Char) : Bool :=
  char.isAlphanum || char = '_' || char = '.'

/-- A name, and what follows the blanks after it. -/
def name? (input : List Char) : Option (String × List Char) :=
  match input with
  | [] => none
  | first :: _ =>
      if first.isAlpha || first = '_' then
        some (String.ofList (input.takeWhile isNameChar),
          (input.dropWhile isNameChar).dropWhile Text.isBlank)
      else none

/-- The name that an entry sets, and what follows the equals sign.  The word
`export` may stand before the name, and it may be the name itself. -/
def target? (input : List Char) : Option (String × List Char) :=
  match name? input with
  | none => none
  | some (name, '=' :: rest) => some (name, rest)
  | some (name, rest) =>
      if name = "export" then
        match name? rest with
        | some (name, '=' :: rest) => some (name, rest)
        | _ => none
      else none

/-- A text without the blanks at its end. -/
def trimEnd (text : List Char) : List Char :=
  (text.reverse.dropWhile Text.isBlank).reverse

/-- What one entry means. -/
inductive Entry where
  | nothing
  | unreadable
  | assignment (name : String) (value : List Piece)
  deriving DecidableEq

/-- Read an entry. -/
def readEntry (text : List Char) : Entry :=
  match (trimEnd text).dropWhile Text.isBlank with
  | [] => .nothing
  | '#' :: _ => .nothing
  | input =>
      match target? input with
      | none => .unreadable
      | some (name, rest) =>
          match rest.dropWhile Text.isBlank with
          | [] => .assignment name []
          | '#' :: _ => .assignment name []
          | value =>
              match value? (.base false) value with
              | some pieces => .assignment name pieces
              | none => .unreadable

/-- The entries of a text. -/
def entriesOf (text : String) : List (Option (List Char)) :=
  match text.toList with
  | '\uFEFF' :: rest => entries [] .plain (lines rest)
  | input => entries [] .plain (lines input)

section

variable {m : Type → Type} [Monad m]

/-- The value of a variable that the environment or else a file sets. -/
def lookup (getVariable? : String → m (Option String)) (set : NameMap String)
    (name : String) : m (Option String) := do
  return (← getVariable? name).or (set.get? name)

/-- The characters that a piece of a value stands for. -/
def expandPiece (getVariable? : String → m (Option String)) (set : NameMap String) :
    Piece → m (List Char)
  | .char char => pure [char]
  | .reference name => do
      return ((← lookup getVariable? set (String.ofList name)).getD "").toList

/-- Carry out entries up to the first unreadable one. -/
def loadEntries (getVariable? : String → m (Option String)) (set : NameMap String) :
    List (Option (List Char)) → m (NameMap String)
  | [] => pure set
  | none :: _ => pure set
  | some text :: rest =>
      match readEntry text with
      | .nothing => loadEntries getVariable? set rest
      | .unreadable => pure set
      | .assignment name pieces => do
          let chars ← pieces.mapM (expandPiece getVariable? set)
          match ← lookup getVariable? set name with
          | some _ => loadEntries getVariable? set rest
          | none => loadEntries getVariable? (set.insert name (String.ofList chars.flatten)) rest

/-- The variables that a file sets beside those of the environment. -/
def load (getVariable? : String → m (Option String)) (text : String) : m (NameMap String) :=
  loadEntries getVariable? NameMap.empty (entriesOf text)

end

end EnvFile

end SolidityModel

import Reckoner.Text.Words

/-! # Commands

Before a line is evaluated it may turn out to be a command, or to ask for the
steps of its evaluation. -/

namespace Reckoner

/-- What a front end does with a line. -/
inductive Command where
  | help
  | quit
  | vars
  | blank
  | expression
  deriving DecidableEq, Repr

namespace Command

/-- The command a trimmed line spells; any other text is an expression. -/
def ofWord (word : String) : Command :=
  if word = "" then .blank
  else if word = "h" || word = "help" then .help
  else if word = "q" || word = "quit" || word = "exit" then .quit
  else if word = "vars" then .vars
  else .expression

/-- Blanks around a command do not matter. -/
def ofLine (line : String) : Command :=
  ofWord (String.ofList (Text.trim line.toList))

end Command

/-- The line asks for an empty history. -/
def asksToClear (line : String) : Bool :=
  Text.sameIgnoringCase line.toList "clear".toList ||
    Text.sameIgnoringCase line.toList "reset".toList

/-- A line, and whether it asks for the steps of its evaluation. -/
structure Request where
  details : Bool
  expression : String
  deriving DecidableEq, Repr

namespace Request

open Unicode

/-- The word that asks for steps, in any case. -/
def keyword : List Char := "details".toList

/-- The text begins with the keyword and a blank. What follows is trimmed. -/
def afterKeyword? (text : List Char) : Option (List Char) :=
  match text.drop keyword.length with
  | [] => none
  | c :: rest =>
      if Text.sameIgnoringCase (text.take keyword.length) keyword && isBlank c then
        some (Text.trim (c :: rest))
      else none

/-- The text ends with a blank and the keyword. What precedes is trimmed. -/
def beforeKeyword? (text : List Char) : Option (List Char) :=
  let split := text.length - keyword.length
  match (text.take split).getLast? with
  | none => none
  | some c =>
      if Text.sameIgnoringCase (text.drop split) keyword && isBlank c then
        some (Text.trim (text.take split))
      else none

/-- Takes the keyword off a line, at its start if it stands there, else at its
end. -/
def ofLine (line : String) : Request :=
  let text := line.toList
  match afterKeyword? text with
  | some rest => ⟨true, String.ofList rest⟩
  | none =>
      match beforeKeyword? text with
      | some rest => ⟨true, String.ofList rest⟩
      | none => if Text.sameIgnoringCase text keyword then ⟨true, ""⟩ else ⟨false, line⟩

end Request
end Reckoner

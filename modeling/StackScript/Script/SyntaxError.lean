import StackScript.Script.Token

/-!
# Syntax errors

What can be wrong with the text of a script.  An error is a cause and a place; the name
of the script is not part of it and enters only when the error is worded.
-/

namespace StackScript

/-- The greatest number of nested levels in an expression. -/
def maxNesting : Nat := 200

/-- What is wrong. -/
inductive SyntaxError.Cause where
  /-- A character that starts no token. -/
  | unexpectedCharacter (c : Char)
  /-- A number with a point or an exponent that cannot be read. -/
  | invalidFloat (digits : String)
  /-- A whole number that does not fit in 64 bits. -/
  | integerTooLarge (digits : String)
  /-- A text with no closing quote on its line. -/
  | unterminatedText
  /-- Something else where an operand should start. -/
  | expectedExpression (found : Option TokenKind)
  /-- Something else where an opening parenthesis should be closed. -/
  | expectedClosing (found : Option TokenKind)
  /-- Something between the arguments of a call that does not separate or end them. -/
  | inArguments (found : Option TokenKind)
  /-- Something after a complete statement. -/
  | afterStatement (found : Option TokenKind)
  /-- A parenthesis that opens one level too many. -/
  | tooManyParentheses
  /-- An operator that opens one level too many. -/
  | nestedTooDeeply
  deriving DecidableEq

/-- What is wrong, and where. -/
structure SyntaxError where
  /-- The place that the error points to. -/
  position : Position
  /-- What is wrong there. -/
  cause : SyntaxError.Cause
  deriving DecidableEq

namespace SyntaxError

/-- The nesting limit as it is worded. -/
def limit : String := Word.natText maxNesting

/-- The wording of a cause. -/
def Cause.message : Cause → String
  | .unexpectedCharacter c => s!"unexpected character '{c}'"
  | .invalidFloat digits => s!"invalid float literal '{digits}'"
  | .integerTooLarge digits => s!"integer literal '{digits}' does not fit in 64 bits"
  | .unterminatedText => "unterminated string literal"
  | .expectedExpression found => s!"expected an expression, found {TokenKind.describeFound found}"
  | .expectedClosing found =>
      s!"unexpected {TokenKind.describeFound found} while looking for ')'"
  | .inArguments found => s!"unexpected {TokenKind.describeFound found} in argument list"
  | .afterStatement found => s!"unexpected {TokenKind.describeFound found} after statement"
  | .tooManyParentheses => s!"too many nested parentheses (limit {limit})"
  | .nestedTooDeeply => s!"expression nested too deeply (limit {limit})"

/-- The wording of an error in the script of the given name. -/
def message (e : SyntaxError) (identifier : String) : String :=
  let line := Word.natText e.position.line
  let column := Word.natText e.position.column
  s!"{identifier}:{line}:{column}: {e.cause.message}"

end SyntaxError

end StackScript

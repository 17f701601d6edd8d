import StackScript.Constant
import StackScript.Operator
import StackScript.Script.Position

/-!
# Tokens

A script is read as a sequence of tokens: literals, names, operators and punctuation, and
the ends of statements.  The end of the script is not a token of its own; a `TokenStream`
carries the place where it lies, so there is exactly one end and nothing can follow it.
-/

namespace StackScript

/-- What a token is. -/
inductive TokenKind where
  /-- A number, a quoted text, or one of the words `True`, `False` and `None`. -/
  | literal (value : Constant)
  /-- Any other word. -/
  | name (word : String)
  /-- One of the six operators. -/
  | operator (op : BinaryOp)
  /-- An opening parenthesis. -/
  | lparen
  /-- A closing parenthesis. -/
  | rparen
  /-- A comma. -/
  | comma
  /-- An equals sign. -/
  | equals
  /-- The end of a statement: a line feed or a semicolon. -/
  | newline
  deriving DecidableEq

/-- A token and the place of its first character. -/
structure Token where
  /-- What the token is. -/
  kind : TokenKind
  /-- Where its first character stands. -/
  position : Position
  deriving DecidableEq

/-- The tokens of a script, and the place where it ends. -/
structure TokenStream where
  /-- The tokens in order. -/
  tokens : List Token
  /-- The end of the script. -/
  stop : Position
  deriving DecidableEq

namespace TokenKind

/-- The literal that a reserved word stands for. -/
def keyword? (word : String) : Option TokenKind :=
  if word = "True" then some (.literal (.bool true))
  else if word = "False" then some (.literal (.bool false))
  else if word = "None" then some (.literal .none)
  else none

/-- How error messages describe a literal. -/
def describeLiteral : Constant → String
  | .none => "'None'"
  | .bool true => "'True'"
  | .bool false => "'False'"
  | .int n => s!"integer {Word.text n}"
  | .float x => s!"float {FloatText.text x}"
  | .str _ => "string literal"

/-- How error messages describe a token. -/
def describe : TokenKind → String
  | .literal value => describeLiteral value
  | .name word => s!"name '{word}'"
  | .operator op => s!"'{op.symbol}'"
  | .lparen => "'('"
  | .rparen => "')'"
  | .comma => "','"
  | .equals => "'='"
  | .newline => "end of line"

/-- How error messages describe what stands at some place, where `none` is the end of the
script. -/
def describeFound : Option TokenKind → String
  | some kind => kind.describe
  | none => "end of input"

end TokenKind

end StackScript

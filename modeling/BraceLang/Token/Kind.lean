/-!
The kinds of token that a source text is made of, with the two ways to write one: its name,
which is unique to the kind, and its symbol, the spelling an operator has in a listing of a
tree. Words are identifiers unless the table of reserved words says otherwise.
-/
namespace BraceLang

/-- What a token is. Illegal tokens stand for text that no rule of the language covers, and
`endOfInput` closes every token buffer that a scan produces. Then come the reserved words, the
operators of arithmetic, logic and bits, the assignments, brackets and punctuation, the
comparisons, and last the tokens whose text carries meaning. -/
inductive TokenKind where
  | illegal | endOfInput
  | kwFn | kwThis | kwIf | kwElse | kwElif | kwWhile | kwFor | kwEnum | kwStruct | kwNamespace
  | kwReturn | kwConst | kwLet | kwUsing | kwNull | kwTrue | kwFalse | kwPrint
  | plus | minus | star | slash | modulo | and | or | not
  | shiftLeft | shiftRight | bitAnd | bitOr | bitNot
  | assign | plusAssign | minusAssign | starAssign | slashAssign | moduloAssign
  | shiftLeftAssign | shiftRightAssign | bitAndAssign | bitOrAssign
  | leftParen | rightParen | leftSquare | rightSquare | leftBrace | rightBrace
  | dot | comma | semicolon | colon | arrow | implies
  | greater | less | equal | greaterEqual | lessEqual | notEqual
  | identifier | intLiteral | stringLiteral | charLiteral | floatLiteral
  deriving DecidableEq, Repr

namespace TokenKind

/-- Every kind, each once. -/
def all : List TokenKind :=
  [.illegal, .endOfInput,
   .kwFn, .kwThis, .kwIf, .kwElse, .kwElif, .kwWhile, .kwFor, .kwEnum, .kwStruct, .kwNamespace,
   .kwReturn, .kwConst, .kwLet, .kwUsing, .kwNull, .kwTrue, .kwFalse, .kwPrint,
   .plus, .minus, .star, .slash, .modulo, .and, .or, .not,
   .shiftLeft, .shiftRight, .bitAnd, .bitOr, .bitNot,
   .assign, .plusAssign, .minusAssign, .starAssign, .slashAssign, .moduloAssign,
   .shiftLeftAssign, .shiftRightAssign, .bitAndAssign, .bitOrAssign,
   .leftParen, .rightParen, .leftSquare, .rightSquare, .leftBrace, .rightBrace,
   .dot, .comma, .semicolon, .colon, .arrow, .implies,
   .greater, .less, .equal, .greaterEqual, .lessEqual, .notEqual,
   .identifier, .intLiteral, .stringLiteral, .charLiteral, .floatLiteral]

/-- The name of a kind, by which token listings and trees refer to it. -/
def name : TokenKind → String
  | illegal => "ILLEGAL"
  | endOfInput => "END"
  | kwFn => "FN"
  | kwThis => "THIS"
  | kwIf => "IF"
  | kwElse => "ELSE"
  | kwElif => "ELIF"
  | kwWhile => "WHILE"
  | kwFor => "FOR"
  | kwEnum => "ENUM"
  | kwStruct => "STRUCT"
  | kwNamespace => "NAMESPACE"
  | kwReturn => "RETURN"
  | kwConst => "CONST"
  | kwLet => "LET"
  | kwUsing => "USING"
  | kwNull => "NULL"
  | kwTrue => "TRUE"
  | kwFalse => "FALSE"
  | kwPrint => "PRINT"
  | plus => "PLUS"
  | minus => "MINUS"
  | star => "STAR"
  | slash => "SLASH"
  | modulo => "MODULO"
  | and => "AND"
  | or => "OR"
  | not => "NOT"
  | shiftLeft => "LSHIFT"
  | shiftRight => "RSHIFT"
  | bitAnd => "BIT_AND"
  | bitOr => "BIT_OR"
  | bitNot => "BIT_NOT"
  | assign => "ASSIGN"
  | plusAssign => "PLUS_EQ"
  | minusAssign => "MINUS_EQ"
  | starAssign => "STAR_EQ"
  | slashAssign => "SLASH_EQ"
  | moduloAssign => "MODULO_EQ"
  | shiftLeftAssign => "LSHIFT_EQ"
  | shiftRightAssign => "RSHIFT_EQ"
  | bitAndAssign => "BIT_AND_EQ"
  | bitOrAssign => "BIT_OR_EQ"
  | leftParen => "LPAREN"
  | rightParen => "RPAREN"
  | leftSquare => "LSQUARE"
  | rightSquare => "RSQUARE"
  | leftBrace => "LBRACE"
  | rightBrace => "RBRACE"
  | dot => "DOT"
  | comma => "COMMA"
  | semicolon => "SEMICOL"
  | colon => "COLON"
  | arrow => "ARROW"
  | implies => "IMPLIES"
  | greater => "GREATER"
  | less => "LESS"
  | equal => "EQUALS"
  | greaterEqual => "GREATER_EQ"
  | lessEqual => "LESS_EQ"
  | notEqual => "NOT_EQ"
  | identifier => "IDENTIFIER"
  | intLiteral => "INT_LITERAL"
  | stringLiteral => "STR_LITERAL"
  | charLiteral => "CHAR_LITERAL"
  | floatLiteral => "FLOAT_LITERAL"

/-- The kind of a given name. -/
def ofName? (name : String) : Option TokenKind :=
  all.find? (·.name == name)

/-- The spelling of an operator in a listing of a tree. A kind that is no operator stands
there under its name. -/
def symbol : TokenKind → String
  | plus => "+"
  | minus => "-"
  | star => "*"
  | slash => "/"
  | modulo => "%"
  | and => "and"
  | or => "or"
  | not => "not"
  | shiftLeft => "<<"
  | shiftRight => ">>"
  | bitAnd => "&"
  | bitOr => "|"
  | bitNot => "~"
  | assign => "="
  | plusAssign => "+="
  | minusAssign => "-="
  | starAssign => "*="
  | slashAssign => "/="
  | moduloAssign => "%="
  | shiftLeftAssign => "<<="
  | shiftRightAssign => ">>="
  | bitAndAssign => "&="
  | bitOrAssign => "|="
  | dot => "."
  | greater => ">"
  | less => "<"
  | equal => "=="
  | greaterEqual => ">="
  | lessEqual => "<="
  | notEqual => "!="
  | kind => kind.name

/-- The words that are not identifiers, with the kind each stands for. Three of them are
operators that can also be written with signs. -/
def reservedWords : List (String × TokenKind) :=
  [("fn", kwFn), ("this", kwThis), ("if", kwIf), ("else", kwElse), ("elif", kwElif),
   ("while", kwWhile), ("for", kwFor), ("enum", kwEnum), ("struct", kwStruct),
   ("namespace", kwNamespace), ("return", kwReturn), ("const", kwConst), ("let", kwLet),
   ("using", kwUsing), ("null", kwNull), ("true", kwTrue), ("false", kwFalse),
   ("print", kwPrint), ("and", and), ("or", or), ("not", not)]

/-- The kind that a reserved word stands for. -/
def reserved? (word : String) : Option TokenKind :=
  reservedWords.lookup word

/-- The kind of a word: what it is reserved for, or else an identifier. -/
def ofWord (word : String) : TokenKind :=
  (reserved? word).getD identifier

/-- The kinds whose text matters beyond their kind, and is shown in a token listing. -/
def carriesText : TokenKind → Bool
  | identifier | intLiteral | floatLiteral | stringLiteral | charLiteral | illegal => true
  | _ => false

/-- Distinct kinds have distinct names, so a kind is found again by its name. -/
theorem ofName?_name (kind : TokenKind) : ofName? kind.name = some kind := by
  cases kind <;> decide

/-- Kinds of one name are equal. -/
theorem name_injective {first second : TokenKind} (same : first.name = second.name) :
    first = second := by
  have found := ofName?_name first
  rw [same, ofName?_name] at found
  exact (Option.some.inj found).symm

end TokenKind

end BraceLang

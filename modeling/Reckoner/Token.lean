/-
# Tokens

A line consists of numbers and of the six symbols `+ - * / ( )`, and it ends
with an end-of-line token.  A token keeps the text it was read from and the
byte offset of that text in the line; `Token.render` is its one-line form in a
token listing.
-/

import Reckoner.Text.Decimal

namespace Reckoner

/-- The operator signs and the two parentheses. -/
inductive Symbol
  | plus
  | minus
  | asterisk
  | slash
  | leftParenthesis
  | rightParenthesis
  deriving DecidableEq, Repr

namespace Symbol

/-- Every symbol, in the order in which they are listed. -/
def all : List Symbol := [plus, minus, asterisk, slash, leftParenthesis, rightParenthesis]

/-- The character that a symbol is written as. -/
def toChar : Symbol → Char
  | plus => '+'
  | minus => '-'
  | asterisk => '*'
  | slash => '/'
  | leftParenthesis => '('
  | rightParenthesis => ')'

/-- The symbol that a character is. -/
def ofChar? (c : Char) : Option Symbol := all.find? fun symbol => symbol.toChar == c

/-- A symbol is found from its character. -/
@[simp] theorem ofChar?_toChar (symbol : Symbol) : ofChar? symbol.toChar = some symbol := by
  cases symbol <;> rfl

/-- The symbol that a character is found to be is written with this character. -/
theorem toChar_of_ofChar? {c : Char} {symbol : Symbol} (h : ofChar? c = some symbol) :
    symbol.toChar = c := by
  simpa using List.find?_some h

/-- **A character is at most one symbol,** and each symbol is one character. -/
theorem ofChar?_eq_some_iff {c : Char} {symbol : Symbol} :
    ofChar? c = some symbol ↔ c = symbol.toChar :=
  ⟨fun h => (toChar_of_ofChar? h).symm, fun h => h ▸ ofChar?_toChar symbol⟩

end Symbol

/-- What a token means. -/
inductive Token.Kind
  /-- A number; one that is read is never negative. -/
  | number (value : Int64)
  /-- An operator sign or a parenthesis. -/
  | symbol (s : Symbol)
  /-- A line break, or the end of the text. -/
  | endOfLine
  deriving DecidableEq, Repr

/-- The symbol that a token is, if it is one. -/
def Token.Kind.symbol? : Token.Kind → Option Symbol
  | .symbol s => some s
  | _ => none

/-- A token of a line. -/
structure Token where
  /-- What it means. -/
  kind : Token.Kind
  /-- The text that the token was read from; at the end of a text it is empty. -/
  literal : List Char
  /-- Where the literal starts in the line, in bytes. -/
  offset : Nat
  deriving DecidableEq, Repr

namespace Token

/-- The place of a token in its line. -/
def span (token : Token) : Span := ⟨token.offset, byteLength token.literal⟩

/-- The word for a symbol in a token listing. -/
def symbolWord : Symbol → String
  | .plus => "PLUS"
  | .minus => "MINUS"
  | .asterisk => "ASTERISK"
  | .slash => "SLASH"
  | .leftParenthesis => "LEFT_PAREN"
  | .rightParenthesis => "RIGHT_PAREN"

/-- A token in a token listing: its word, its literal and its value, where a
token without a value has `null`.  The literal of an end of line is left out. -/
def render (token : Token) : List Char :=
  match token.kind with
  | .number value =>
    "NUMBER".toList ++ ' ' :: token.literal ++ ' ' :: Decimal.ofInt64 value
  | .symbol symbol => (symbolWord symbol).toList ++ ' ' :: token.literal ++ " null".toList
  | .endOfLine => "EOL  null".toList

/-- **An end of line is told by its entry** from all other tokens. -/
theorem render_eq_endOfLine_iff {token : Token} :
    token.render = "EOL  null".toList ↔ token.kind = .endOfLine := by
  obtain ⟨kind, literal, offset⟩ := token
  cases kind with
  | number value =>
    refine ⟨fun h => ?_, fun h => by cases h⟩
    have hhead : some 'N' = some 'E' := congrArg List.head? h
    cases hhead
  | symbol s =>
    refine ⟨fun h => ?_, fun h => by cases h⟩
    have hhead : (symbolWord s).toList.head? = some 'E' := by
      have := congrArg List.head? h
      cases s <;> exact this
    cases s <;> cases hhead
  | endOfLine => exact ⟨fun _ => rfl, fun _ => rfl⟩

/-- An entry is on one line if the literal is. -/
theorem lineBreak_not_mem_render {token : Token}
    (h : token.kind ≠ .endOfLine → '\n' ∉ token.literal) : '\n' ∉ token.render := by
  obtain ⟨kind, literal, offset⟩ := token
  cases kind with
  | number value =>
    have hliteral : '\n' ∉ literal := h (by simp)
    show '\n' ∉ "NUMBER".toList ++ ' ' :: literal ++ ' ' :: Decimal.ofInt64 value
    simp [hliteral, Decimal.lineBreak_not_mem_ofInt64]
  | symbol s =>
    have hliteral : '\n' ∉ literal := h (by simp)
    have hword : '\n' ∉ (symbolWord s).toList := by cases s <;> decide
    show '\n' ∉ (symbolWord s).toList ++ ' ' :: literal ++ " null".toList
    simp [hliteral, hword]
  | endOfLine =>
    show '\n' ∉ "EOL  null".toList
    decide

end Token
end Reckoner

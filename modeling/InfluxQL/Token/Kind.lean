import InfluxQL.Syntax.Operator
import InfluxQL.Token.Keyword

/-!
# Kinds of tokens

A `TokenKind` says what sort of token was read; the text that the kind does not imply travels in
the token itself.

* `TokenKind.text`: the name of a kind in messages;
* `TokenKind.ofWord?`: the kind of a reserved word, whatever the case of its letters;
* `TokenKind.endsOperand`: after such a token a sign is an operator, not part of a number;
* `ofWord?_text`: every reserved word is found under its own name.
-/

namespace InfluxQL

/-- The kind of a token. `illegal` is a character that begins no token; `badString`, `badEscape`
and `badRegex` are literals that are not closed or hold an unknown escape. -/
inductive TokenKind
  | illegal
  | eof
  | blank
  | ident
  | param
  | number
  | integer
  | string
  | badString
  | badEscape
  | regex
  | badRegex
  | bool (value : Bool)
  | op (o : Operator)
  | leftParen
  | rightParen
  | comma
  | colon
  | doubleColon
  | semicolon
  | dot
  | keyword (k : Keyword)
  deriving DecidableEq, Repr, Inhabited

namespace TokenKind

/-- The name of a kind, which for words, operators and punctuation is how it is written. -/
def text : TokenKind → String
  | illegal => "ILLEGAL"
  | eof => "EOF"
  | blank => "WS"
  | ident => "IDENT"
  | param => "BOUNDPARAM"
  | number => "NUMBER"
  | integer => "INTEGER"
  | string => "STRING"
  | badString => "BADSTRING"
  | badEscape => "BADESCAPE"
  | regex => "REGEX"
  | badRegex => "BADREGEX"
  | bool true => "TRUE"
  | bool false => "FALSE"
  | op o => o.text
  | leftParen => "("
  | rightParen => ")"
  | comma => ","
  | colon => ":"
  | doubleColon => "::"
  | semicolon => ";"
  | dot => "."
  | keyword k => k.text

/-- The operator that a token of this kind stands for. -/
def operator? : TokenKind → Option Operator
  | op o => some o
  | _ => none

/-- How tightly the operator binds; zero for a token that is no operator. -/
def precedence (k : TokenKind) : Nat :=
  (k.operator?.map Operator.precedence).getD 0

/-- The kinds of reserved words: the keywords, `AND`, `OR`, `TRUE` and `FALSE`. -/
def isReserved : TokenKind → Bool
  | bool _ | op .and | op .or | keyword _ => true
  | _ => false

/-- The kinds of all reserved words. -/
def reserved : List TokenKind :=
  [bool true, bool false, op .and, op .or] ++ Keyword.all.map keyword

/-- The reserved word that is spelled so, if there is one. Only ASCII letters have a case here. -/
def ofWord? (word : List Char) : Option TokenKind :=
  let capitals := String.ofList (word.map Char.toUpper)
  reserved.find? fun k => k.text = capitals

/-- The kinds of token that can be the last of an operand. -/
def endsOperand : TokenKind → Bool
  | ident | number | integer | string | bool _ | param | regex | rightParen => true
  | _ => false

/-- The list holds the reserved kinds and no other. -/
theorem mem_reserved {k : TokenKind} : k ∈ reserved ↔ k.isReserved := by
  constructor
  · intro h
    simp only [reserved, List.mem_append, List.mem_cons, List.mem_map, List.not_mem_nil] at h
    rcases h with (rfl | rfl | rfl | rfl | h) | ⟨w, -, rfl⟩
    all_goals first | rfl | exact h.elim
  · intro h
    simp only [reserved, List.mem_append, List.mem_map]
    cases k with
    | bool b => cases b <;> simp
    | op o => cases o <;> simp_all [isReserved]
    | keyword w => exact .inr ⟨w, w.mem_all, rfl⟩
    | _ => simp [isReserved] at h

/-- What a word stands for is a reserved kind that is spelled like it, in capitals. -/
theorem ofWord?_eq_some {word : List Char} {k : TokenKind} (h : ofWord? word = some k) :
    k.isReserved ∧ k.text = String.ofList (word.map Char.toUpper) := by
  have hm := List.mem_of_find?_eq_some h
  have hp := List.find?_some h
  exact ⟨mem_reserved.1 hm, by simpa using hp⟩

/-- Every reserved word is found under its own name. -/
theorem ofWord?_text : ∀ k ∈ reserved, ofWord? k.text.toList = some k := by
  decide +kernel

end TokenKind

end InfluxQL

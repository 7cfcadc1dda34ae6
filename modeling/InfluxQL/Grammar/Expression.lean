import InfluxQL.Grammar.Reference
import InfluxQL.Numeric.Decimal
import InfluxQL.Params
import InfluxQL.PatternCompiler
import InfluxQL.Unicode.Lowercase

/-!
# Expressions of the language

    expression ::= operand ( operator operand | match-operator regex )*
    operand    ::= "(" expression ")" | call | reference | literal | parameter
    call       ::= ident "(" [ argument ( "," argument )* ] ")"
    argument   ::= regex | expression
    reference  ::= name [ "::" type ]

The parenthesis of a call follows its name at once. A parameter is replaced by the literal for its
value. Operands and operators are read one after the other, and the tree is built from them when
the chain ends.

Rules that hold expressions within them get the rule for these as an argument, `nested`; the knot is
tied in `Grammar.expression`, which may nest as many times as it is given steps.
-/

namespace InfluxQL.Grammar

open Production

variable [PatternCompiler]

/-- A regular expression that has been read, if it compiles. -/
def pattern (t : Token) : Production String :=
  match PatternCompiler.compile t.lit with
  | .ok _ => pure t.lit
  | .error text => failAt t (.badPattern text)

theorem pattern_of_compiles {t : Token} (h : Compiles t.lit) : pattern t = pure t.lit := by
  rw [pattern, h]

theorem pattern_of_error {t : Token} {text : String}
    (h : PatternCompiler.compile t.lit = .error text) :
    pattern t = failAt t (.badPattern text) := by
  rw [pattern, h]

/-- Skips a blank if its first character is one; a comment is left. -/
def skipBlankCharacter : Production Unit := do
  match ← peek? with
  | some c => if isBlank c then skipBlank else pure ()
  | none => pure ()

/-- A regular expression, if one starts here or after a blank. -/
def regex? : Production (Option String) := do
  skipBlankCharacter
  match ← peek? with
  | some '/' =>
    let t ← scanRegex
    match t.kind with
    | .regex =>
      let p ← pattern t
      pure (some p)
    | .badEscape => failAt t (.badEscape t.lit)
    | .badRegex => failAt t (.unterminatedRegex t.lit)
    | _ => unexpected t ["regex"]
  | _ => pure none

/-- The literal for the value of a parameter. -/
def bound (params : Params) (t : Token) : Production Atom :=
  let name := String.ofList (t.lit.toList.drop 1)
  if name = "" then failAt t .emptyParam
  else
    match params.get? name with
    | none => failAt t (.missingParam name)
    | some (.float x) => pure (.number x)
    | some (.integer n) => pure (.integer n)
    | some (.string s) => pure (.string s)
    | some (.boolean b) => pure (.boolean b)
    | some v => failAt t (.unbindableParam v.typeName)

/-- A reference whose first segment is the token `first`. -/
def reference (steps : Nat) (first : Token) : Production VarRef := do
  let names ← segments steps first
  let name := String.intercalate "." names
  let t ← scan
  if t.kind = .doubleColon then
    let t ← scan
    match if t.kind = .ident then DataType.ofName? t.lit.toList else none with
    | some type => pure ⟨name, type⟩
    | none => unexpected t (DataType.declarable.map DataType.text)
  else
    unscan
    pure ⟨name, .unknown⟩

/-- An argument of a call. -/
def argument (nested : Production Expr) : Production Expr := do
  match ← regex? with
  | some p => pure (.atom (.regex p))
  | none => nested

/-- A comma and an argument behind those read so far, if there is a comma. -/
def furtherArgument (nested : Production Expr) (args : List Expr) :
    Production (List Expr ⊕ List Expr) := do
  let t ← scanSignificant
  if t.kind = .comma then
    let e ← argument nested
    pure (.inl (args ++ [e]))
  else
    unscan
    pure (.inr args)

/-- The arguments behind the first and the parenthesis that closes a call. -/
def arguments (steps : Nat) (nested : Production Expr) (first : Expr) :
    Production (List Expr) := do
  let args ← loop (furtherArgument nested) steps [first]
  let t ← scan
  if t.kind = .rightParen then pure args else unexpected t [")"]

/-- The arguments of a call whose opening parenthesis has been read. -/
def callArguments (steps : Nat) (nested : Production Expr) : Production (List Expr) := do
  match ← regex? with
  | some p => arguments steps nested (.atom (.regex p))
  | none =>
    let t ← scan
    if t.kind = .rightParen then pure []
    else
      unscan
      let e ← nested
      arguments steps nested e

/-- A call or a reference that starts with the token `first`. Names of calls are in lower case. -/
def callOrReference (steps : Nat) (nested : Production Expr) (first : Token) :
    Production Expr := do
  let t ← scan
  if t.kind = .leftParen then
    let args ← callArguments steps nested
    pure (.call (String.ofList (Unicode.lowercase first.lit.toList)) args)
  else
    unscan
    let v ← reference steps first
    pure (.atom (.var v))

/-- An expression whose opening parenthesis has been read. -/
def parenthesized (nested : Production Expr) : Production Expr := do
  let e ← nested
  let t ← scanSignificant
  if t.kind = .rightParen then pure (.paren e) else unexpected t [")"]

/-- An operand: an expression that is no binary operation. -/
def operand (params : Params) (steps : Nat) (nested : Production Expr) : Production Expr := do
  let t ← scanSignificant
  match t.kind with
  | .leftParen => parenthesized nested
  | .ident => callOrReference steps nested t
  | .string => pure (.atom (.string t.lit))
  | .number => pure (.atom (.number (Decimal.double t.lit.toList)))
  | .integer =>
    match Decimal.integer? t.lit.toList with
    | some n => pure (.atom (.integer n))
    | none => failAt t .integerRange
  | .bool b => pure (.atom (.boolean b))
  | .param =>
    let a ← bound params t
    pure (.atom a)
  | .badString => failAt t (.unterminatedString t.lit)
  | .badEscape => failAt t (.badEscape t.lit)
  | _ => unexpected t ["identifier", "string", "number", "bool"]

/-- The regular expression behind an operator that matches one. -/
def matchOperand : Production Expr := do
  skipBlank
  match ← regex? with
  | some p => pure (.atom (.regex p))
  | none =>
    let t ← scanSignificant
    unexpected t ["regex"]

/-- The right operand of an operator. -/
def rightOperand (params : Params) (steps : Nat) (nested : Production Expr) (op : Operator) :
    Production Expr :=
  if op.isMatch then matchOperand else operand params steps nested

/-- An operator and its right operand behind those read so far, if there is an operator. -/
def operation (params : Params) (steps : Nat) (nested : Production Expr)
    (ops : List (Operator × Expr)) :
    Production (List (Operator × Expr) ⊕ List (Operator × Expr)) := do
  let t ← scanSignificant
  match t.kind.operator? with
  | none =>
    unscan
    pure (.inr ops)
  | some op =>
    let rhs ← rightOperand params steps nested op
    pure (.inl (ops ++ [(op, rhs)]))

/-- An operand, and the operators and operands behind it in the order of the text. -/
def chain (params : Params) (steps : Nat) (nested : Production Expr) :
    Production (Expr × List (Operator × Expr)) := do
  let first ← operand params steps nested
  let ops ← loop (operation params steps nested) steps []
  pure (first, ops)

/-- An expression. -/
def expression (params : Params) : (steps : Nat) → Production Expr
  | 0 => outOfSteps
  | n + 1 => do
    let (first, ops) ← chain params n (expression params n)
    pure (.ofChain first ops)

end InfluxQL.Grammar

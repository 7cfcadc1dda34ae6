import InfluxQL.Grammar.Query
import InfluxQL.Proofs.Grammar.Yield
import InfluxQL.Proofs.Token.Passage

/-!
# What happens while a production reads

A `Trace` of a production tells what happens from a stream on, whether the production then succeeds or
fails: the events lead from the scanner from which the stream goes on to the one from which the stream
goes on that is left. `Held` is the same for what is done when a token has just been read; only then can
a token be put back.

There is one trace for each step and for each way of putting productions together, and from these
one for each rule of the grammar, up to `Grammar.queryTrace`. Each round of a repetition and each
expression within another leaves a mark. What happens while a whole query is read is `queryEvents`.
-/

namespace InfluxQL

namespace Production

open Scanner TokenStream

variable {α β : Type}

/-- What happens while a production reads. -/
structure Trace (p : Production α) where
  events : TokenStream → List Event
  passes : ∀ {c s}, GoesOn c s →
    ∃ c', c.Passes (events s) c' ∧ ∀ a s', p s = .ok (a, s') → GoesOn c' s'

/-- What happens when a token has been read and a production follows, and what becomes of the token. -/
structure Held (p : Production α) where
  use : Use
  events : TokenStream → List Event
  passes : ∀ c, ∃ c', c.Passes (.given use c.scan.1 :: events (justRead c)) c' ∧
    ∀ a s', p (justRead c) = .ok (a, s') → GoesOn c' s'

variable {p q : Production α}

namespace Trace

/-- The same production, given in another way. -/
def congr (T : Trace p) (h : p = q) : Trace q :=
  ⟨T.events, h ▸ T.passes⟩

/-- A production that leaves the stream alone. -/
def still (h : ∀ s a s', p s = .ok (a, s') → s' = s) : Trace p where
  events _ := []
  passes {c s} hs := ⟨c, .done c, fun a s' hr => h s a s' hr ▸ hs⟩

theorem still_pure (a : α) (s : TokenStream) (b : α) (s' : TokenStream)
    (h : (Pure.pure a : Production α) s = .ok (b, s')) : s' = s := by
  cases h
  rfl

def pure (a : α) : Trace (Pure.pure a : Production α) :=
  still (still_pure a)

def fail (e : ParseError) : Trace (Production.fail e : Production α) :=
  still (by rintro s a s' ⟨⟩)

/-- What happens in one production and then in another. -/
def bind {p : Production β} {f : β → Production α} (T : Trace p) (U : ∀ x, Trace (f x)) :
    Trace (p >>= f) where
  events s := T.events s ++
    match p s with
    | .ok (x, s') => (U x).events s'
    | .error _ => []
  passes {c s} hs := by
    obtain ⟨c', hc', h⟩ := T.passes hs
    cases hp : p s with
    | error e =>
      refine ⟨c', by simpa using hc', fun a s' hr => ?_⟩
      obtain ⟨x, s₁, hx, -⟩ := bind_eq_ok.1 hr
      rw [hp] at hx
      cases hx
    | ok r =>
      obtain ⟨x, s₁⟩ := r
      obtain ⟨c'', hc'', h'⟩ := (U x).passes (h x s₁ hp)
      refine ⟨c'', hc'.append hc'', fun a s' hr => ?_⟩
      obtain ⟨y, s₂, hy, ha⟩ := bind_eq_ok.1 hr
      rw [hp] at hy
      cases hy
      exact h' a s' ha

/-- The production leaves a mark when it begins. -/
def mark (m : Mark) (T : Trace p) : Trace p where
  events s := .starts m s.offset :: T.events s
  passes {c s} hs := by
    obtain ⟨c', hc', h⟩ := T.passes hs
    rw [hs.offset_eq]
    exact ⟨c', .step (.starts c m) hc', h⟩

def skipBlank : Trace Production.skipBlank where
  events s := [.given (if s.scan.1.kind = .blank then .taken false else .returned) s.scan.1]
  passes {c s} hs := by
    rw [hs.scan_eq]
    refine ⟨_, moves_pastBlank.passes, ?_⟩
    rintro _ _ ⟨⟩
    exact hs.skipBlank

def peek? : Trace Production.peek? where
  events _ := [.peeked]
  passes {c s} hs := by
    refine ⟨c, (Moves.peeked c).passes, ?_⟩
    rintro _ _ ⟨⟩
    exact hs

def ite {c : Prop} [Decidable c] (T : Trace p) (U : Trace q) : Trace (if c then p else q) :=
  if h : c then T.congr (if_pos h).symm else U.congr (if_neg h).symm

/-- Reading the next token. -/
def next {f : Token → Production α} (H : ∀ t, Held (f t)) : Trace (scan >>= f) where
  events s := .given (H s.scan.1).use s.scan.1 :: (H s.scan.1).events s.scan.2
  passes {c s} hs := by
    rw [hs.scan_eq]
    obtain ⟨c', hc', h⟩ := (H c.scan.1).passes c
    refine ⟨c', hc', fun a s' hr => ?_⟩
    obtain ⟨t, s₁, ht, ha⟩ := bind_eq_ok.1 hr
    have he : (c.scan.1, justRead c) = (t, s₁) := by
      rw [← hs.scan_eq]
      exact Except.ok.inj ht
    cases he
    exact h a s' ha

/-- Reading a significant token is skipping a blank, and then reading the next token. -/
theorem scanSignificant_bind (f : Token → Production α) :
    scanSignificant >>= f = (Production.skipBlank >>= fun _ => scan >>= f) := by
  have h : ∀ s : TokenStream, s.skipBlank.scan = s.scanSignificant := by
    intro s
    unfold TokenStream.skipBlank TokenStream.scanSignificant
    dsimp only
    split_ifs
    · rfl
    · rw [scan_snd]
      rfl
  funext s
  show f s.scanSignificant.1 s.scanSignificant.2 = f s.skipBlank.scan.1 s.skipBlank.scan.2
  rw [h]

/-- Reading the next significant token. -/
def significant {f : Token → Production α} (H : ∀ t, Held (f t)) : Trace (scanSignificant >>= f) :=
  (skipBlank.bind fun _ => next H).congr (scanSignificant_bind f).symm

end Trace

namespace Held

/-- The token is taken; `bound` if the value of a parameter is put in its place. -/
def takeAs (bound : Bool) (T : Trace p) : Held p where
  use := .taken bound
  events := T.events
  passes c := by
    obtain ⟨c', hc', h⟩ := T.passes (goesOn_justRead c)
    exact ⟨c', .step (.taken c bound) hc', h⟩

/-- The token is taken as it is. -/
def take (T : Trace p) : Held p :=
  takeAs false T

/-- The token is put back. -/
def putBack (T : Trace p) : Held (unscan >>= fun _ => p) where
  use := .returned
  events s := T.events s.unscan
  passes c := by
    obtain ⟨c', hc', h⟩ := T.passes (goesOn_unscan_justRead c)
    refine ⟨c', .step (.returned c) hc', fun a s' hr => ?_⟩
    exact h a s' hr

def congr (H : Held p) (h : p = q) : Held q :=
  ⟨H.use, H.events, h ▸ H.passes⟩

def ite {c : Prop} [Decidable c] (H : Held p) (K : Held q) : Held (if c then p else q) :=
  if h : c then H.congr (if_pos h).symm else K.congr (if_neg h).symm

end Held

namespace Trace

/-- Looking for a token of a kind. -/
def lookFor {k : TokenKind} {y : Token → Production α} (T : ∀ t, Trace (y t)) (U : Trace q) :
    Trace (scan >>= fun t => if t.kind = k then y t else unscan >>= fun _ => q) :=
  .next fun t => .ite (.take (T t)) (.putBack U)

/-- Looking for a significant token of a kind. -/
def lookForSignificant {k : TokenKind} {y : Token → Production α} (T : ∀ t, Trace (y t))
    (U : Trace q) :
    Trace (scanSignificant >>= fun t => if t.kind = k then y t else unscan >>= fun _ => q) :=
  .significant fun t => .ite (.take (T t)) (.putBack U)

/-- A token of a kind, or else an error. -/
def expect {k : TokenKind} {y : Token → Production α} {expected : List String}
    (T : ∀ t, Trace (y t)) :
    Trace (scan >>= fun t => if t.kind = k then y t else unexpected t expected) :=
  .next fun t => .ite (.take (T t)) (.take (.fail _))

/-- A significant token of a kind, or else an error. -/
def expectSignificant {k : TokenKind} {y : Token → Production α} {expected : List String}
    (T : ∀ t, Trace (y t)) :
    Trace (scanSignificant >>= fun t => if t.kind = k then y t else unexpected t expected) :=
  .significant fun t => .ite (.take (T t)) (.take (.fail _))

/-- A repetition, each round of which leaves a mark. -/
def loop {body : β → Production (β ⊕ α)} (m : Mark) (T : ∀ b, Trace (body b)) :
    (n : Nat) → (b : β) → Trace (Production.loop body n b)
  | 0, _ => .fail _
  | n + 1, b => ((T b).mark m).bind fun
    | .inl b => loop m T n b
    | .inr a => .pure a

end Trace

/-- Reads a regular expression if a slash is the next character. -/
def atSlash (f : Token → Production α) (q : Production α) : Production α :=
  fun s => if s.peek? = some '/' then (scanRegex >>= f) s else q s

def Trace.atSlash {f : Token → Production α} (T : ∀ t, Trace (f t)) (U : Trace q) :
    Trace (atSlash f q) where
  events s := .peeked ::
    if s.peek? = some '/' then .given .regex s.scanRegex.1 :: (T s.scanRegex.1).events s.scanRegex.2
    else U.events s
  passes {c s} hs := by
    unfold Production.atSlash
    split_ifs with hslash
    · rw [hs.peek?_eq] at hslash
      obtain ⟨rest, ha⟩ : ∃ rest, c.cursor.ahead = '/' :: rest := by
        cases ha : c.cursor.ahead with
        | nil => simp [ha] at hslash
        | cons x rest => exact ⟨rest, by simpa [ha] using hslash⟩
      rw [hs.scanRegex_eq_regex ha]
      obtain ⟨c', hc', h⟩ := (T (c.regex rest).1).passes (goesOn_justReadRegex c rest)
      refine ⟨c', .step (.peeked c) (.step (.regex ha) hc'), fun a s' hok => ?_⟩
      obtain ⟨t, s₁, ht, hok⟩ := bind_eq_ok.1 hok
      have he : s.scanRegex = (t, s₁) := Except.ok.inj ht
      rw [hs.scanRegex_eq_regex ha] at he
      cases he
      exact h a s' hok
    · obtain ⟨c', hc', h⟩ := U.passes hs
      exact ⟨c', .step (.peeked c) hc', h⟩

end Production

namespace Grammar

open Production

variable {nested : Production Expr} {params : Params} {steps : Nat}

/-! ### Names -/

def identTokenTrace : Trace identToken :=
  .expectSignificant fun t => .pure t

def identTrace : Trace ident :=
  identTokenTrace.bind fun t => .pure t.lit

/-- What follows a dot depends on the next character. -/
def behindDot (names : List String) (t : Token) (c? : Option Char) :
    Production (Segments ⊕ Segments) :=
  if c? = some '/' ∨ c? = some ':' then pure (.inr ⟨names, t.span.stop⟩)
  else if c? = some '.' then pure (.inl ⟨names ++ [""], t.span.stop⟩)
  else do
    let t ← identToken
    pure (.inl ⟨names ++ [t.lit], t.span.stop⟩)

theorem match_behindDot {γ : Type} (c? : Option Char) (x y z : γ) :
    (match c? with | some '/' | some ':' => x | some '.' => y | _ => z) =
      if c? = some '/' ∨ c? = some ':' then x else if c? = some '.' then y else z := by
  split <;> simp_all

theorem segment_eq (s : Segments) : segment s = (scan >>= fun t =>
    if t.kind = .dot then peek? >>= behindDot s.names t
    else unscan >>= fun _ => pure (.inr s)) := by
  have h : ∀ t, behindDot s.names t = _ := fun t => funext fun c? => (match_behindDot c? ..).symm
  simp only [h]
  rfl

def behindDotTrace (names : List String) (t : Token) (c? : Option Char) :
    Trace (behindDot names t c?) :=
  .ite (.pure _) (.ite (.pure _) (identTokenTrace.bind fun _ => .pure _))

def segmentTrace (s : Segments) : Trace (segment s) :=
  (Trace.lookFor (fun t => Trace.peek?.bind (behindDotTrace s.names t))
    (.pure (.inr s : Segments ⊕ Segments))).congr (segment_eq s).symm

def segmentsTrace (steps : Nat) (first : Token) : Trace (segments steps first) :=
  (Trace.loop .segment segmentTrace steps _).bind fun s => .ite (.pure s.names) (.fail _)

def dottedNameTrace (steps : Nat) : Trace (dottedName steps) :=
  identTokenTrace.bind (segmentsTrace steps)

/-! ### References and literals -/

theorem bound_still {t : Token} {s s' : TokenStream} {a : Atom}
    (h : bound params t s = .ok (a, s')) : s' = s := by
  unfold bound at h
  by_cases hname : String.ofList (t.lit.toList.drop 1) = ""
  · rw [if_pos hname] at h
    cases h
  · rw [if_neg hname] at h
    generalize params.get? _ = v at h
    cases v with
    | none => cases h
    | some v => cases v <;> cases h <;> rfl

/-- A reference whose name has been read and whose type is the token. -/
def typed (name : String) (t : Token) : Production VarRef :=
  match if t.kind = .ident then DataType.ofName? t.lit.toList else none with
  | some type => pure ⟨name, type⟩
  | none => unexpected t (DataType.declarable.map DataType.text)

theorem typed_eq (name : String) (t : Token) :
    (∃ v, typed name t = pure v) ∨
      typed name t = unexpected t (DataType.declarable.map DataType.text) := by
  unfold typed
  split
  · exact .inl ⟨_, rfl⟩
  · exact .inr rfl

theorem typed_of_ne (name : String) {t : Token} (h : t.kind ≠ .ident) :
    typed name t = unexpected t (DataType.declarable.map DataType.text) := by
  rw [typed, if_neg h]

def typedTrace (name : String) (t : Token) : Trace (typed name t) :=
  .still (by
    intro s a s' h
    rcases typed_eq name t with ⟨v, hv⟩ | hv <;> rw [hv] at h <;> cases h
    rfl)

def referenceTrace (steps : Nat) (first : Token) : Trace (reference steps first) :=
  (segmentsTrace steps first).bind fun _ =>
    .lookFor (fun _ => .next fun t => .take (typedTrace _ t)) (.pure _)

/-- An operand that is a single token. -/
def tokenOperand (params : Params) (t : Token) : Production Expr :=
  match t.kind with
  | .string => pure (.atom (.string t.lit))
  | .number => pure (.atom (.number (Decimal.double t.lit.toList)))
  | .integer =>
    match Decimal.integer? t.lit.toList with
    | some n => pure (.atom (.integer n))
    | none => failAt t .integerRange
  | .bool b => pure (.atom (.boolean b))
  | .param => do
    let a ← bound params t
    pure (.atom a)
  | .badString => failAt t (.unterminatedString t.lit)
  | .badEscape => failAt t (.badEscape t.lit)
  | _ => unexpected t ["identifier", "string", "number", "bool"]

def tokenOperandTrace (params : Params) (t : Token) : Trace (tokenOperand params t) :=
  .still (by
    intro s a s' h
    unfold tokenOperand at h
    generalize t.kind = k at h
    cases k with
    | integer =>
      dsimp only at h
      generalize Decimal.integer? t.lit.toList = n at h
      cases n <;> cases h
      rfl
    | param =>
      obtain ⟨x, s₁, hx, ha⟩ := bind_eq_ok.1 h
      cases ha
      exact bound_still hx
    | _ => cases h <;> rfl)

/-- A token that is idle is no operand. -/
theorem tokenOperand_of_isIdle (params : Params) {t : Token} (h : t.kind.isIdle) :
    ∃ cause, tokenOperand params t = failAt t cause := by
  unfold tokenOperand
  generalize t.kind = k at h
  cases k <;> first | exact ⟨_, rfl⟩ | cases h

/-! ### Regular expressions -/

theorem skipBlankCharacter_eq : skipBlankCharacter =
    (peek? >>= fun c? => if c?.any isBlank then skipBlank else pure ()) := by
  refine congrArg (peek? >>= ·) (funext fun c? => ?_)
  cases c? <;> rfl

def skipBlankCharacterTrace : Trace skipBlankCharacter :=
  (Trace.peek?.bind fun _ => .ite .skipBlank (.pure ())).congr skipBlankCharacter_eq.symm

theorem match_slash {γ : Type} (c? : Option Char) (x y : γ) :
    (match c? with | some '/' => x | _ => y) = if c? = some '/' then x else y := by
  split <;> simp_all

variable [PatternCompiler]

theorem pattern_still {t : Token} {s s' : TokenStream} {p : String}
    (h : pattern t s = .ok (p, s')) : s' = s := by
  rcases compiles_or_error t.lit with hc | ⟨text, he⟩
  · rw [pattern_of_compiles hc] at h
    cases h
    rfl
  · rw [pattern_of_error he] at h
    cases h

def patternTrace (t : Token) : Trace (pattern t) :=
  .still fun _ _ _ => pattern_still

/-- What follows when a slash has been read for the start of a regular expression. -/
def regexLiteral (t : Token) : Production (Option String) :=
  match t.kind with
  | .regex => do
    let p ← pattern t
    pure (some p)
  | .badEscape => failAt t (.badEscape t.lit)
  | .badRegex => failAt t (.unterminatedRegex t.lit)
  | _ => unexpected t ["regex"]

theorem regex?_eq :
    regex? = (skipBlankCharacter >>= fun _ => atSlash regexLiteral (pure none)) := by
  refine congrArg (skipBlankCharacter >>= ·) (funext fun _ => funext fun s => ?_)
  show (match s.peek? with | some '/' => scanRegex >>= regexLiteral | _ => pure none :
    Production (Option String)) s = _
  rw [match_slash]
  unfold atSlash
  split <;> rfl

def regexLiteralTrace (t : Token) : Trace (regexLiteral t) :=
  .still (by
    intro s a s' h
    unfold regexLiteral at h
    generalize t.kind = k at h
    cases k <;> try cases h
    obtain ⟨p, s₁, hp, ha⟩ := bind_eq_ok.1 h
    cases ha
    exact pattern_still hp)

theorem regexLiteral_fails {t : Token} (h : t.kind ≠ .regex) (s : TokenStream) :
    ∃ e, regexLiteral t s = .error e := by
  unfold regexLiteral
  generalize t.kind = k at h
  cases k <;> first | exact absurd rfl h | exact ⟨_, rfl⟩

def regexTrace : Trace regex? :=
  (skipBlankCharacterTrace.bind fun _ => .atSlash regexLiteralTrace (.pure none)).congr regex?_eq.symm

/-! ### Expressions -/

section Nested

variable (T : Trace nested)
include T

def argumentTrace : Trace (argument nested) :=
  regexTrace.bind fun
    | some _ => .pure _
    | none => T.mark .nested

def furtherArgumentTrace (args : List Expr) : Trace (furtherArgument nested args) :=
  .lookForSignificant (fun _ => (argumentTrace T).bind fun _ => .pure _) (.pure _)

def argumentsTrace (steps : Nat) (first : Expr) : Trace (arguments steps nested first) :=
  (Trace.loop .argument (furtherArgumentTrace T) steps [first]).bind fun _ => .expect fun _ => .pure _

def callArgumentsTrace (steps : Nat) : Trace (callArguments steps nested) :=
  regexTrace.bind fun
    | some _ => argumentsTrace T steps _
    | none => .next fun _ =>
      .ite (.take (.pure _)) (.putBack ((T.mark .nested).bind (argumentsTrace T steps)))

def callOrReferenceTrace (steps : Nat) (first : Token) :
    Trace (callOrReference steps nested first) :=
  .lookFor (fun _ => (callArgumentsTrace T steps).bind fun _ => .pure _)
    ((referenceTrace steps first).bind fun _ => .pure _)

def parenthesizedTrace : Trace (parenthesized nested) :=
  (T.mark .nested).bind fun _ => .expectSignificant fun _ => .pure _

end Nested

theorem operand_eq : operand params steps nested = (scanSignificant >>= fun t =>
    if t.kind = .leftParen then parenthesized nested
    else if t.kind = .ident then callOrReference steps nested t
    else tokenOperand params t) := by
  refine congrArg (scanSignificant >>= ·) (funext fun t => ?_)
  unfold tokenOperand
  generalize t.kind = k
  cases k <;> rfl

def operandTrace (params : Params) (steps : Nat) (T : Trace nested) :
    Trace (operand params steps nested) :=
  (Trace.significant fun t => .ite (.take (parenthesizedTrace T)) (.ite
    (.take (callOrReferenceTrace T steps t))
    (.takeAs (t.kind = .param) (tokenOperandTrace params t)))).congr operand_eq.symm

def matchOperandTrace : Trace matchOperand :=
  Trace.skipBlank.bind fun _ => regexTrace.bind fun
    | some _ => .pure _
    | none => .significant fun _ => .take (.fail _)

def rightOperandTrace (params : Params) (steps : Nat) (T : Trace nested) (op : Operator) :
    Trace (rightOperand params steps nested op) :=
  .ite matchOperandTrace (operandTrace params steps T)

def operationTrace (params : Params) (steps : Nat) (T : Trace nested)
    (ops : List (Operator × Expr)) :
    Trace (operation params steps nested ops) :=
  .significant fun t =>
    match t.kind.operator? with
    | none => .putBack (.pure _)
    | some op => .take ((rightOperandTrace params steps T op).bind fun _ => .pure _)

def chainTrace (params : Params) (steps : Nat) (T : Trace nested) :
    Trace (chain params steps nested) :=
  (operandTrace params steps T).bind fun _ =>
    (Trace.loop .operation (operationTrace params steps T) steps []).bind fun _ => .pure _

def expressionTrace (params : Params) : (steps : Nat) → Trace (expression params steps)
  | 0 => .fail _
  | n + 1 => (chainTrace params n (expressionTrace params n)).bind fun _ => .pure _

/-! ### Statements -/

def fieldNameTrace : Trace fieldName? :=
  .lookForSignificant (fun _ => identTrace.bind fun _ => .pure _) (.pure _)

def fieldTrace (params : Params) (steps : Nat) : Trace (field params steps) :=
  .significant fun _ => .putBack ((expressionTrace params steps).bind fun e =>
    match e.firstCondition? with
    | some _ => .fail _
    | none => fieldNameTrace.bind fun _ => Trace.skipBlank.bind fun _ => .pure _)

def furtherFieldTrace (params : Params) (steps : Nat) (fields : List Field) :
    Trace (furtherField params steps fields) :=
  (fieldTrace params steps).bind fun _ => .lookFor (fun _ => .pure _) (.pure _)

def sourceTrace (steps : Nat) : Trace (source steps) :=
  regexTrace.bind fun
    | some _ => .pure _
    | none => (dottedNameTrace steps).bind fun _ => .ite (.pure _) (regexTrace.bind fun _ => .pure _)

def furtherSourceTrace (steps : Nat) (sources : List Source) :
    Trace (furtherSource steps sources) :=
  (sourceTrace steps).bind fun _ => .lookForSignificant (fun _ => .pure _) (.pure _)

def conditionTrace (params : Params) (steps : Nat) : Trace (condition? params steps) :=
  .lookForSignificant (fun _ => (expressionTrace params steps).bind fun _ => .pure _) (.pure _)

/-- What follows the fields of a statement: sources and a condition. What is made of them is `f`. -/
def behindFields {α : Type} (params : Params) (steps : Nat)
    (f : List Source → Option Expr → Production α) : Production α := do
  let t ← scanSignificant
  if t.kind = .keyword .FROM then
    let sources ← loop (furtherSource steps) steps []
    let condition ← condition? params steps
    f sources condition
  else unexpected t ["FROM"]

def behindFieldsTrace {α : Type} (params : Params) (steps : Nat)
    {f : List Source → Option Expr → Production α} (T : ∀ sources condition, Trace (f sources condition)) :
    Trace (behindFields params steps f) :=
  .expectSignificant fun _ => (Trace.loop .source (furtherSourceTrace steps) steps []).bind fun sources =>
    (conditionTrace params steps).bind fun condition => T sources condition

theorem behindFields_bind {α β : Type} (f : List Source → Option Expr → Production α)
    (g : α → Production β) : behindFields params steps f >>= g =
      behindFields params steps fun sources condition => f sources condition >>= g := by
  rw [behindFields, behindFields, bind_assoc]
  refine congrArg (scanSignificant >>= ·) (funext fun t => ?_)
  split
  · simp only [bind_assoc]
  · rfl

/-- A statement that has been read, if its aggregates are in order. -/
def validated (first : Token) (s : Select) : Production Select :=
  match s.validate with
  | .ok _ => pure s
  | .error fault => failAt first (.semantic fault)

def validatedTrace (first : Token) (s : Select) : Trace (validated first s) :=
  .still (by
    intro st a st' h
    unfold validated at h
    generalize s.validate = v at h
    cases v <;> cases h
    rfl)

theorem select_eq (first : Token) : select params steps first =
    (loop (furtherField params steps) steps [] >>= fun fields =>
      behindFields params steps fun sources condition =>
        validated first ⟨fields, sources, condition, !fields.any (·.expr.containsCall)⟩) :=
  rfl

def selectTrace (params : Params) (steps : Nat) (first : Token) :
    Trace (select params steps first) :=
  (Trace.loop .field (furtherFieldTrace params steps) steps []).bind fun fields =>
    behindFieldsTrace params steps fun sources condition =>
      validatedTrace first ⟨fields, sources, condition, !fields.any (·.expr.containsCall)⟩

def statementTrace (params : Params) (steps : Nat) : Trace (statement params steps) :=
  .expectSignificant fun t => (selectTrace params steps t).bind fun _ => .pure _

/-- What follows the statements that have been read depends on the next token. -/
def behindStatements (params : Params) (steps : Nat) (s : Statements) (t : Token) :
    Production (Statements ⊕ Query) :=
  if t.kind = .eof then pure (.inr ⟨s.statements⟩)
  else if t.kind = .semicolon then pure (.inl { s with separated := true })
  else if s.separated then unscan >>= fun _ => do
    let x ← statement params steps
    pure (.inl ⟨s.statements ++ [x], false⟩)
  else unexpected t [";"]

theorem furtherStatement_eq (s : Statements) :
    furtherStatement params steps s = scanSignificant >>= behindStatements params steps s := by
  refine congrArg (scanSignificant >>= ·) (funext fun t => ?_)
  unfold behindStatements
  generalize t.kind = k
  cases k <;> rfl

def behindStatementsHeld (params : Params) (steps : Nat) (s : Statements) (t : Token) :
    Held (behindStatements params steps s t) :=
  .ite (.take (.pure _)) (.ite (.take (.pure _)) (.ite
    (.putBack ((statementTrace params steps).bind fun _ => .pure _)) (.take (.fail _))))

def furtherStatementTrace (params : Params) (steps : Nat) (s : Statements) :
    Trace (furtherStatement params steps s) :=
  (Trace.significant (behindStatementsHeld params steps s)).congr (furtherStatement_eq s).symm

def queryTrace (params : Params) (steps : Nat) : Trace (query params steps) :=
  .loop .statement (furtherStatementTrace params steps) steps _

end Grammar

/-- What happens while the query of the text is read. -/
def queryEvents [PatternCompiler] (source : String) (params : Params) : List Event :=
  (Grammar.queryTrace params (Grammar.stepsFor source.toList)).events
    (TokenStream.start source.toList)

end InfluxQL

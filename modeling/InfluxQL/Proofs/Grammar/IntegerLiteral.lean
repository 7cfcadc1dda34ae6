import InfluxQL.Proofs.Grammar.Signs

/-!
# Integer literals

An integer literal is read exactly, or not at all: it may have any number of digits, but the number that
it stands for must fit into 64 bits. The sign counts before the limits are looked at, so that the least
integer can be written, although its digits alone are out of range. The text of an integer is read as this
integer, at the beginning of an expression and behind an operator.

* `Decimal.signedValue`: the number that digits stand for behind a sign;
* `Decimal.integer?_eq_some_iff`, `Decimal.integer?_eq_none_iff`: which literals have which value;
* `Grammar.parseExpr_literal`: a number with a value is an expression;
* `Grammar.expression_error_of_integer`: an integer without one is what the error is about;
* `parseExpr_integer`: which integer literals are read, and that their texts are.
-/

namespace InfluxQL

open Production Scanner TokenStream

namespace Decimal

variable {sign : String} {d : List Char} {v : Int64}

/-- The number that digits stand for behind a sign, or without one. -/
def signedValue (sign : String) (d : List Char) : Int :=
  if sign = "-" then -(Nat.ofDigitChars 10 d 0) else Nat.ofDigitChars 10 d 0

/-- Without a sign, or behind a plus or a minus. -/
theorem signed_cases (hs : sign ∈ ["", "+", "-"]) (d : List Char) :
    sign = "" ∧ sign.toList ++ d = d ∨ sign = "+" ∧ sign.toList ++ d = '+' :: d ∨
      sign = "-" ∧ sign.toList ++ d = '-' :: d := by
  simp only [List.mem_cons, List.not_mem_nil, or_false] at hs
  rcases hs with rfl | rfl | rfl
  · exact .inl ⟨rfl, rfl⟩
  · exact .inr (.inl ⟨rfl, rfl⟩)
  · exact .inr (.inr ⟨rfl, rfl⟩)

theorem splitSign_signed (hs : sign ∈ ["", "+", "-"]) (h : IsDigits d) :
    splitSign (sign.toList ++ d) = (decide (sign = "-"), d) := by
  rcases signed_cases hs d with ⟨rfl, ht⟩ | ⟨rfl, ht⟩ | ⟨rfl, ht⟩
  · have hd := splitSign_digits h []
    rwa [List.append_nil] at hd
  · rw [ht]
    rfl
  · rw [ht]
    rfl

/-- The value of an integer literal, within the limits. -/
theorem integer?_signed (hs : sign ∈ ["", "+", "-"]) (h : IsDigits d) :
    integer? (sign.toList ++ d) =
      if -2 ^ 63 ≤ signedValue sign d ∧ signedValue sign d ≤ 2 ^ 63 - 1 then
        some (Int64.ofInt (signedValue sign d))
      else none := by
  rw [integer?, splitSign_signed hs h]
  simp only [decide_eq_true_eq]
  rfl

/-- A literal has exactly the value that it stands for. -/
theorem integer?_eq_some_iff (hs : sign ∈ ["", "+", "-"]) (h : IsDigits d) :
    integer? (sign.toList ++ d) = some v ↔ v.toInt = signedValue sign d := by
  rw [integer?_signed hs h]
  have hlow := v.minValue_le_toInt
  have hhigh := v.toInt_le
  constructor
  · intro hv
    obtain ⟨hrange, hv⟩ := Option.ite_none_right_eq_some.1 hv
    rw [← Option.some.inj hv]
    exact Int64.toInt_ofInt_of_le hrange.1 (by omega)
  · intro hv
    rw [← hv, if_pos ⟨hlow, hhigh⟩, Int64.ofInt_toInt]

/-- It has none if 64 bits cannot hold it. -/
theorem integer?_eq_none_iff (hs : sign ∈ ["", "+", "-"]) (h : IsDigits d) :
    integer? (sign.toList ++ d) = none ↔
      ¬(-2 ^ 63 ≤ signedValue sign d ∧ signedValue sign d ≤ 2 ^ 63 - 1) := by
  rw [integer?_signed hs h, ite_eq_right_iff]
  exact forall_congr' fun _ => iff_of_false nofun id

end Decimal

namespace Lexeme

variable {sign : String} {d literal : List Char}

/-- Where an operand is expected the whole text is an integer. -/
def IsIntegerLiteral (text : List Char) : Prop :=
  next? false text = some ⟨.integer, text, text.length⟩ ∧ '.' ∉ text

theorem IsIntegerLiteral.isLiteral (h : IsIntegerLiteral literal) : IsLiteral literal :=
  ⟨.integer, h.1, .inr ⟨rfl, h.2⟩⟩

/-- A sign and digits are one integer. -/
theorem isIntegerLiteral_signed (hs : sign ∈ ["", "+", "-"]) (h : Decimal.IsDigits d) :
    IsIntegerLiteral (sign.toList ++ d) := by
  have hdot : '.' ∉ d := not_mem_of_digits rfl h.2
  have hfirst : ∀ c ∈ d.head?, c.isDigit ∨ c = '.' :=
    fun c hc => .inl (h.2 c (List.mem_of_mem_head? hc))
  have hnext : ∀ text, (text = d ∨ ∃ c, (c = '-' ∨ c = '+') ∧ text = c :: d) →
      next? false text = some ⟨.integer, text, text.length⟩ := by
    intro text ht
    have hnext := next?_signed hfirst (numeral?_integer h delimited_nil) h.1 ht
    rwa [List.append_nil] at hnext
  rcases Decimal.signed_cases hs d with ⟨-, ht⟩ | ⟨-, ht⟩ | ⟨-, ht⟩
  · rw [ht]
    exact ⟨hnext _ (.inl rfl), hdot⟩
  · rw [ht]
    exact ⟨hnext _ (.inr ⟨'+', .inr rfl, rfl⟩), by simpa using hdot⟩
  · rw [ht]
    exact ⟨hnext _ (.inr ⟨'-', .inl rfl, rfl⟩), by simpa using hdot⟩

theorem isIntegerLiteral_ofInteger (v : Int64) : IsIntegerLiteral (Decimal.ofInteger v) := by
  have hnone : "" ∈ ["", "+", "-"] := by simp
  have hminus : "-" ∈ ["", "+", "-"] := by simp
  obtain ⟨d, hd, ht | ht⟩ := Decimal.ofInteger_eq v
  · rw [ht]
    exact isIntegerLiteral_signed hnone hd
  · rw [ht]
    exact isIntegerLiteral_signed hminus hd

end Lexeme

theorem Atom.ofLiteral?_of_isIntegerLiteral {literal : List Char} (h : Lexeme.IsIntegerLiteral literal) :
    Atom.ofLiteral? literal = (Decimal.integer? literal).map .integer :=
  if_neg h.2

theorem Atom.ofLiteral?_ofInteger (v : Int64) :
    Atom.ofLiteral? (Decimal.ofInteger v) = some (.integer v) := by
  rw [ofLiteral?_of_isIntegerLiteral (Lexeme.isIntegerLiteral_ofInteger v), Decimal.integer?_ofInteger]
  rfl

namespace Grammar

variable [PatternCompiler]
variable {params : Params} {n : Nat} {nested : Production Expr} {c : Scanner} {s : TokenStream}
  {literal : List Char} {a : Atom}

/-- A number with a value is read as an expression. -/
theorem parseExpr_literal (h : Lexeme.IsLiteral literal) (ha : Atom.ofLiteral? literal = some a)
    (params : Params) : parseExpr (String.ofList literal) params = .ok (.atom a) := by
  have hne : literal ≠ [] := by
    rintro rfl
    obtain ⟨k, hk, -⟩ := h
    cases hk
  exact parseExpr_of_operand hne (operand_reads_number h h.pastBlank_eq ha)

/-- An integer without a value is what the error is about, where an operand is expected. -/
theorem operand_error_of_integer (hs : GoesOn c s) (hk : c.pastBlank.scan.1.kind = .integer)
    (hv : Decimal.integer? c.pastBlank.scan.1.lit.toList = none) :
    operand params n nested s = .error (.atToken c.pastBlank.scan.1 .integerRange) := by
  have ht : Production.scanSignificant s = .ok (c.pastBlank.scan.1, justRead c.pastBlank) :=
    congrArg Except.ok hs.scanSignificant_eq
  rw [operand, bind_of_ok ht, hk]
  simp only [hv]
  rfl

/-- It also is where an expression is. -/
theorem expression_error_of_integer (hs : GoesOn c s) (hk : c.pastBlank.scan.1.kind = .integer)
    (hv : Decimal.integer? c.pastBlank.scan.1.lit.toList = none) :
    expression params (n + 1) s = .error (.atToken c.pastBlank.scan.1 .integerRange) := by
  rw [expression]
  exact bind_of_error (bind_of_error (operand_error_of_integer hs hk hv))

/-- An integer without a value is no expression. The error is about the whole of it. -/
theorem parseExpr_integerRange (h : Lexeme.IsIntegerLiteral literal)
    (hv : Decimal.integer? literal = none) (params : Params) :
    parseExpr (String.ofList literal) params =
      .error ⟨.integerRange, ⟨0, 0⟩, ⟨0, byteSize literal⟩⟩ := by
  have hscan : (Scanner.start literal).scan =
      (Scanner.start literal).take ⟨.integer, literal, literal.length⟩ :=
    scan_of_lexeme h.1
  have hpast : (Scanner.start literal).pastBlank = Scanner.start literal := by
    rw [Scanner.pastBlank, hscan]
    rfl
  have ht : (Scanner.start literal).pastBlank.scan.1 =
      ⟨.integer, String.ofList literal, ⟨0, 0⟩, ⟨0, byteSize literal⟩⟩ := by
    have hstop : ((Cursor.start literal).advance literal.length).offset = byteSize literal := by
      simp [Cursor.advance, Cursor.start]
    rw [hpast, hscan]
    simp only [Scanner.take, Scanner.start, Cursor.pos_start, hstop]
    rfl
  have herror : expression params (stepsFor literal) (TokenStream.start literal) =
      .error (.atToken (Scanner.start literal).pastBlank.scan.1 .integerRange) :=
    expression_error_of_integer (.clear none) (by rw [ht]) (by rwa [ht, String.toList_ofList])
  rw [ht] at herror
  rw [parseExpr, String.toList_ofList]
  exact run_eq_error.2 herror

/-- Behind an expression and an operator a number with a value is read as the right operand. -/
theorem ReadsToEnd.parseExpr_operation {text : String} {e : Expr} (h : ReadsToEnd params text.toList e)
    (hcomment : ¬EndsInComment params text.toList) {word : String} {op : Operator}
    (hword : Lexeme.IsOperator word.toList op) (hop : ¬op.isMatch) (hl : Lexeme.IsLiteral literal)
    (ha : Atom.ofLiteral? literal = some a) :
    parseExpr (text ++ " " ++ word ++ " " ++ String.ofList literal) params =
      .ok (e.insert op (.atom a)) := by
  have htext : (text ++ " " ++ word ++ " " ++ String.ofList literal).toList =
      text.toList ++ ' ' :: (word.toList ++ ' ' :: literal) := by
    simp
  rcases h.appended_cases with ⟨hends, -⟩ | hread
  · exact absurd hends hcomment
  · have hread := hread _ _ _ (Lexeme.followsOperand_blank _) (Lexeme.isOperation_spaced hword hl) hop hl
    rw [ha] at hread
    rw [parseExpr, htext]
    generalize (expression params _).run _ = r at hread ⊢
    cases r with
    | error => cases hread
    | ok => exact congrArg Except.ok (Option.some.inj hread)

end Grammar

/-- **Integer literals are exact or rejected.** Digits, with a sign or without one, are read as the integer
that they stand for if 64 bits can hold it; if not, the error is about all of them. The text of every
integer is read as this integer, alone and as the right operand of each operator that takes an operand. -/
theorem parseExpr_integer [PatternCompiler] (params : Params) :
    (∀ sign ∈ ["", "+", "-"], ∀ d : String, Decimal.IsDigits d.toList →
      let n := Decimal.signedValue sign d.toList
      (-2 ^ 63 ≤ n ∧ n ≤ 2 ^ 63 - 1 →
        ∃ v : Int64, v.toInt = n ∧ parseExpr (sign ++ d) params = .ok (.atom (.integer v))) ∧
      (¬(-2 ^ 63 ≤ n ∧ n ≤ 2 ^ 63 - 1) →
        ∃ err, parseExpr (sign ++ d) params = .error err ∧
          err.messageText? = some "unable to parse integer" ∧ err.pos = ⟨0, 0⟩ ∧
          err.span = ⟨0, (sign ++ d).utf8ByteSize⟩)) ∧
    ∀ v : Int64,
      parseExpr (Expr.atom (.integer v)).text params = .ok (.atom (.integer v)) ∧
      ∀ (s : String) (e : Expr), Grammar.ReadsToEnd params s.toList e →
        ¬Grammar.EndsInComment params s.toList →
        ∀ (word : String) (op : Operator), Lexeme.IsOperator word.toList op → ¬op.isMatch →
          parseExpr (s ++ " " ++ word ++ " " ++ (Expr.atom (.integer v)).text) params =
            .ok (e.insert op (.atom (.integer v))) := by
  refine ⟨fun sign hs d hd => ⟨fun hrange => ?_, fun hrange => ?_⟩, fun v => ⟨?_, ?_⟩⟩
  · have hliteral := Lexeme.isIntegerLiteral_signed hs hd
    obtain ⟨v, hv⟩ : ∃ v, Decimal.integer? (sign.toList ++ d.toList) = some v := by
      rw [← Option.ne_none_iff_exists', Ne, Decimal.integer?_eq_none_iff hs hd, not_not]
      exact hrange
    have ha : Atom.ofLiteral? (sign.toList ++ d.toList) = some (.integer v) := by
      rw [Atom.ofLiteral?_of_isIntegerLiteral hliteral, hv]
      rfl
    have hread := Grammar.parseExpr_literal hliteral.isLiteral ha params
    rw [← String.toList_append, String.ofList_toList] at hread
    exact ⟨v, (Decimal.integer?_eq_some_iff hs hd).1 hv, hread⟩
  · have hv := (Decimal.integer?_eq_none_iff hs hd).2 hrange
    have herror := Grammar.parseExpr_integerRange (Lexeme.isIntegerLiteral_signed hs hd) hv params
    rw [← String.toList_append, String.ofList_toList, ← utf8ByteSize_eq_byteSize] at herror
    exact ⟨_, herror, rfl, rfl, rfl⟩
  · exact Grammar.parseExpr_literal (Lexeme.isIntegerLiteral_ofInteger v).isLiteral
      (Atom.ofLiteral?_ofInteger v) params
  · intro s e h hcomment word op hword hop
    exact h.parseExpr_operation hcomment hword hop (Lexeme.isIntegerLiteral_ofInteger v).isLiteral
      (Atom.ofLiteral?_ofInteger v)

/-- The least integer can be written, with zeros before its digits. Without its minus it is too large. -/
theorem parseExpr_integer_least :
    let s := "a * f(b)"
    let e : Expr := .binary .mul (.atom (.var ⟨"a", .unknown⟩)) (.call "f" [.atom (.var ⟨"b", .unknown⟩)])
    let least : Expr := .atom (.integer Int64.minValue)
    (Decimal.IsDigits "009223372036854775808".toList ∧
      Grammar.ReadsToEnd .empty s.toList e ∧ ¬Grammar.EndsInComment .empty s.toList ∧
      Lexeme.IsOperator "-".toList .sub ∧ ¬Operator.sub.isMatch) ∧
    parseExpr ("-" ++ "009223372036854775808") .empty = .ok least ∧
      (∃ err, parseExpr ("+" ++ "009223372036854775808") .empty = .error err ∧
        err.messageText? = some "unable to parse integer" ∧ err.pos = ⟨0, 0⟩ ∧ err.span = ⟨0, 22⟩) ∧
      parseExpr least.text .empty = .ok least ∧
      parseExpr (s ++ " " ++ "-" ++ " " ++ least.text) .empty = .ok (.binary .sub e least) := by
  intro s e least
  have hdigits : Decimal.IsDigits "009223372036854775808".toList :=
    ⟨by simp, by simp⟩
  have hread : Grammar.ReadsToEnd .empty s.toList e := by
    decide +kernel
  have hcomment : ¬Grammar.EndsInComment .empty s.toList := by
    decide +kernel
  obtain ⟨hliteral, htext⟩ := parseExpr_integer .empty
  obtain ⟨v, hv, hleast⟩ := (hliteral "-" (by simp) _ hdigits).1 (by decide)
  obtain rfl : v = Int64.minValue := Int64.toInt_inj.1 hv
  have hlarge := (hliteral "+" (by simp) _ hdigits).2 (by decide)
  obtain ⟨halone, hoperand⟩ := htext Int64.minValue
  exact ⟨⟨hdigits, hread, hcomment, rfl, nofun⟩, hleast, hlarge, halone,
    hoperand s e hread hcomment "-" .sub rfl nofun⟩

end InfluxQL

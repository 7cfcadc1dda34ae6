import InfluxQL.Proofs.Grammar.Appended
import InfluxQL.Proofs.Grammar.ExpressionReading

/-!
# Where a sign belongs to a number

A sign is a binary operator wherever an operand has ended right before it, and is part of the number
behind it wherever an operand is expected. What an operand is, and how large the expression is that ends
with it, makes no difference.

* `Atom.ofLiteral?`: the value of a literal;
* `Lexeme.IsLiteral`, `Lexeme.IsOperation`: a number, and an operator with a number behind it;
* `Grammar.ReadsToEnd.appended_cases`: what becomes of these behind an expression;
* `parseExpr_sign`: signs behind an expression.
-/

namespace InfluxQL

open Production Scanner TokenStream

/-- A number without a sign: digits, perhaps with a point and further digits, or a point and digits. -/
inductive Decimal.IsUnsigned : List Char → Prop
  | integer {whole : List Char} (digits : IsDigits whole) : IsUnsigned whole
  | decimal {whole fraction : List Char} (before : ∀ c ∈ whole, c.isDigit)
      (behind : IsDigits fraction) : IsUnsigned (whole ++ '.' :: fraction)

/-- The operators that can be signs. -/
def Operator.IsSign (op : Operator) : Prop :=
  op = .add ∨ op = .sub

/-- The value of a number literal. It has none if it is an integer that 64 bits cannot hold. -/
def Atom.ofLiteral? (literal : List Char) : Option Atom :=
  if '.' ∈ literal then some (.number (Decimal.double literal))
  else (Decimal.integer? literal).map .integer

namespace Lexeme

variable {text tail word rest literal d : List Char} {op sign : Operator}

/-! ### Number literals -/

/-- Where an operand is expected the whole text is a number, with a point in it if it is a double. -/
def IsLiteral (text : List Char) : Prop :=
  ∃ k, next? false text = some ⟨k, text, text.length⟩ ∧
    (k = .number ∧ '.' ∈ text ∨ k = .integer ∧ '.' ∉ text)

theorem IsLiteral.pastBlank_eq (h : IsLiteral text) : pastBlank text = text := by
  obtain ⟨k, hk, hkind⟩ := h
  refine pastBlank_of_nextKind (b := false) ?_
  rw [nextKind_of_lexeme hk]
  rintro rfl
  simp at hkind

theorem not_mem_of_digits {c : Char} (hc : c.isDigit = false) (h : ∀ x ∈ text, x.isDigit) : c ∉ text := by
  intro hmem
  rw [h c hmem] at hc
  cases hc

theorem ne_nil_of_isUnsigned (h : Decimal.IsUnsigned d) : d ≠ [] := by
  cases h with
  | integer h => exact h.1
  | decimal => simp

theorem isDigit_or_point_of_isUnsigned (h : Decimal.IsUnsigned d) : ∀ c ∈ d, c.isDigit ∨ c = '.' := by
  intro c hc
  cases h with
  | integer h => exact .inl (h.2 c hc)
  | decimal hw hf =>
    rcases List.mem_append.1 hc with hc | hc
    · exact .inl (hw c hc)
    rcases List.mem_cons.1 hc with rfl | hc
    · exact .inr rfl
    · exact .inl (hf.2 c hc)

/-- A number without a sign takes all of its text. -/
theorem numeral?_of_isUnsigned (h : Decimal.IsUnsigned d) : ∃ k,
    numeral? (d ++ []) = some (k, d.length) ∧ (k = .number ∧ '.' ∈ d ∨ k = .integer ∧ '.' ∉ d) := by
  cases h with
  | integer h =>
    exact ⟨_, numeral?_integer h delimited_nil, .inr ⟨rfl, not_mem_of_digits rfl h.2⟩⟩
  | decimal hw hf =>
    exact ⟨_, numeral?_number hw hf delimited_nil, .inl ⟨rfl, by simp⟩⟩

/-- With a sign or without, it is one literal. -/
theorem isLiteral_of_isUnsigned (h : Decimal.IsUnsigned d)
    (ht : text = d ∨ ∃ c, (c = '-' ∨ c = '+') ∧ text = c :: d) : IsLiteral text := by
  obtain ⟨k, hn, hk⟩ := numeral?_of_isUnsigned h
  have hnext := next?_signed
    (fun c hc => isDigit_or_point_of_isUnsigned h c (List.mem_of_mem_head? hc)) hn
    (ne_nil_of_isUnsigned h) ht
  rw [List.append_nil] at hnext
  refine ⟨k, hnext, ?_⟩
  rcases ht with rfl | ⟨c, rfl | rfl, rfl⟩
  · exact hk
  · simpa using hk
  · simpa using hk

theorem isLiteral_sign (hs : sign.IsSign) (h : Decimal.IsUnsigned d) :
    IsLiteral (sign.text.toList ++ d) := by
  rcases hs with rfl | rfl
  · exact isLiteral_of_isUnsigned h (.inr ⟨'+', .inr rfl, rfl⟩)
  · exact isLiteral_of_isUnsigned h (.inr ⟨'-', .inl rfl, rfl⟩)

/-! ### Operators -/

/-- Behind an operand the whole text is an operator. -/
def IsOperator (word : List Char) (op : Operator) : Prop :=
  next? true word = some ⟨.op op, [], word.length⟩

theorem isOperator_text (op : Operator) : IsOperator op.text.toList op := by
  cases op <;> rfl

/-- It also is one with a blank behind it. -/
theorem IsOperator.next? (h : IsOperator word op) (rest : List Char) :
    next? true (word ++ ' ' :: rest) = some ⟨.op op, [], word.length⟩ := by
  have hne : word ≠ [] := by
    rintro rfl
    cases h
  have hbreaks : Breaks (' ' :: rest) := by
    rintro _ ⟨⟩
    exact .inl rfl
  rcases next?_append (b := true) hbreaks (by rintro - ⟨⟩) hne with heq | ⟨l, l', hl, -, hbehind⟩
  · rw [heq, h]
  · rw [h] at hl
    cases hl
    rcases hbehind.kinds with ⟨hk, -⟩ | ⟨hk, -⟩ <;> cases hk

/-- Right before a number a sign is an operator, where an operand has ended. -/
theorem next?_sign (hs : sign.IsSign) (h : Decimal.IsUnsigned d) :
    next? true (sign.text.toList ++ d) = some ⟨.op sign, [], sign.text.toList.length⟩ := by
  obtain ⟨x, d, rfl⟩ := List.exists_cons_of_ne_nil (ne_nil_of_isUnsigned h)
  have hx : x ≠ '-' := by
    rintro rfl
    exact absurd (isDigit_or_point_of_isUnsigned h '-' (by simp)) (by decide)
  rcases hs with rfl | rfl
  · rfl
  · have hw : blankWidth false ('-' :: x :: d) = 0 := by
      simp [blankWidth, isBlank, hx]
    show next? true ('-' :: x :: d) = _
    rw [next?, if_neg (by simp [hw])]
    rfl

/-- An operator and a number behind it, blanks aside. -/
def IsOperation (tail : List Char) (op : Operator) (literal : List Char) : Prop :=
  ∃ word rest, pastBlank tail = word ++ rest ∧
    next? true (word ++ rest) = some ⟨.op op, [], word.length⟩ ∧ pastBlank rest = literal

theorem IsOperation.ne_nil (h : IsOperation tail op literal) : tail ≠ [] := by
  rintro rfl
  obtain ⟨word, rest, hword, hnext, -⟩ := h
  rw [← hword] at hnext
  cases hnext

/-- Further blanks may stand before it. -/
theorem IsOperation.append {gap : List Char} (h : IsOperation tail op literal)
    (hgap : blankWidth false gap = gap.length) (ho : opensComment false gap = false) :
    IsOperation (gap ++ tail) op literal := by
  obtain ⟨word, rest, hword, h⟩ := h
  exact ⟨word, rest, (pastBlank_append hgap ho).trans hword, h⟩

/-- The operator stands between blanks. -/
theorem isOperation_spaced (hop : IsOperator word op) (hl : IsLiteral literal) :
    IsOperation (' ' :: (word ++ ' ' :: literal)) op literal := by
  have hnext := hop.next? literal
  refine ⟨word, ' ' :: literal, ?_, hnext, ?_⟩
  · rw [pastBlank_space]
    exact pastBlank_of_nextKind (b := true) (by simp [nextKind_of_lexeme hnext])
  · rw [pastBlank_space, hl.pastBlank_eq]

/-- The operator is a sign that stands right before the number. -/
theorem isOperation_sign (hs : sign.IsSign) (h : Decimal.IsUnsigned d) :
    IsOperation (sign.text.toList ++ d) sign d := by
  have hnext := next?_sign hs h
  refine ⟨_, _, ?_, hnext, (isLiteral_of_isUnsigned h (.inl rfl)).pastBlank_eq⟩
  exact pastBlank_of_nextKind (b := true) (by simp [nextKind_of_lexeme hnext])

end Lexeme

namespace Grammar

variable [PatternCompiler]
variable {params : Params} {n m : Nat} {nested : Production Expr} {text tail literal d : List Char}
  {a : Atom} {op sign : Operator} {ops : List (Operator × Expr)} {e : Expr}

/-! ### Reading a number -/

/-- A literal with a value is read as this operand. -/
theorem operand_reads_number (hl : Lexeme.IsLiteral literal) (ht : Lexeme.pastBlank text = literal)
    (ha : Atom.ofLiteral? literal = some a) :
    (operand params n nested).Reads false text (.atom a) true [] := by
  obtain ⟨k, hk, hkind⟩ := hl
  rw [← List.append_nil literal] at ht hk
  rcases hkind with ⟨rfl, hdot⟩ | ⟨rfl, hdot⟩
  · rw [Atom.ofLiteral?, if_pos hdot] at ha
    cases ha
    refine .significantWord literal ht (by simpa using hk) (by decide) fun t hkind hlit => ?_
    simp only [hkind, hlit, String.toList_ofList]
    exact .pure rfl
  · rw [Atom.ofLiteral?, if_neg hdot] at ha
    obtain ⟨i, hi, rfl⟩ := Option.map_eq_some_iff.1 ha
    refine .significantWord literal ht (by simpa using hk) (by decide) fun t hkind hlit => ?_
    simp only [hkind, hlit, String.toList_ofList, hi]
    exact .pure rfl

/-- A literal without one is an integer that is out of range. -/
theorem operand_fails_number (hl : Lexeme.IsLiteral literal) (ht : Lexeme.pastBlank text = literal)
    (ha : Atom.ofLiteral? literal = none) :
    (operand params n nested).FailsWith false text .integerRange := by
  obtain ⟨k, hk, hkind⟩ := hl
  rw [← List.append_nil literal] at ht hk
  rcases hkind with ⟨rfl, hdot⟩ | ⟨rfl, hdot⟩
  · rw [Atom.ofLiteral?, if_pos hdot] at ha
    cases ha
  · rw [Atom.ofLiteral?, if_neg hdot, Option.map_eq_none_iff] at ha
    refine .significantWord literal ht (by simpa using hk) (by decide) fun t hkind hlit => ?_
    simp only [hkind, hlit, String.toList_ofList, ha]
    exact fun _ _ => ⟨_, rfl, rfl⟩

/-- One more operator, and a number as its right operand. -/
theorem operations_read_operation (hl : Lexeme.IsLiteral literal) (hop : ¬op.isMatch)
    (ht : Lexeme.IsOperation text op literal) (ha : Atom.ofLiteral? literal = some a) :
    (loop (operation params n nested) (m + 2) ops).Reads true text (ops ++ [(op, .atom a)]) true [] := by
  obtain ⟨word, rest, hword, hnext, hrest⟩ := ht
  have hend : (loop (operation params n nested) (m + 1) (ops ++ [(op, .atom a)])).Reads true []
      (ops ++ [(op, .atom a)]) true [] :=
    operations_read_end rfl _
  refine Reads.round ?_ hend
  refine .significantWord word hword hnext nofun fun t hk _ => ?_
  rw [hk]
  refine Reads.bind (x := .atom a) ?_ (.pure rfl)
  rw [rightOperand, if_neg hop]
  exact operand_reads_number hl hrest ha

theorem operations_fail_operation (hl : Lexeme.IsLiteral literal) (hop : ¬op.isMatch)
    (ht : Lexeme.IsOperation text op literal) (ha : Atom.ofLiteral? literal = none) :
    (loop (operation params n nested) (m + 1) ops).FailsWith true text .integerRange := by
  obtain ⟨word, rest, hword, hnext, hrest⟩ := ht
  refine .round (.significantWord word hword hnext nofun fun t hk _ => ?_)
  rw [hk]
  refine FailsWith.bind ?_
  rw [rightOperand, if_neg hop]
  exact operand_fails_number hl hrest ha

/-! ### Behind an expression -/

omit [PatternCompiler] in
theorem ofChain_concat (first : Expr) (ops : List (Operator × Expr)) (op : Operator) (rhs : Expr) :
    Expr.ofChain first (ops ++ [(op, rhs)]) = (Expr.ofChain first ops).insert op rhs := by
  rw [Expr.ofChain, List.foldl_append, Expr.ofChain]
  rfl

/-- **Behind an expression an operator and a number are read as such**, unless the expression ends in a
comment. This takes what stands behind on the same line. -/
theorem ReadsToEnd.appended_cases (h : ReadsToEnd params text e) :
    (EndsInComment params text ∧ ∀ tail, Lexeme.FollowsOperand tail → '\n' ∉ tail →
      (expression params (stepsFor (text ++ tail))).run (text ++ tail) = .ok e) ∨
    ∀ tail op literal, Lexeme.FollowsOperand tail → Lexeme.IsOperation tail op literal → ¬op.isMatch →
      Lexeme.IsLiteral literal →
        ((expression params (stepsFor (text ++ tail))).run (text ++ tail)).toOption =
          (Atom.ofLiteral? literal).map fun a => e.insert op (.atom a) := by
  obtain ⟨first, ops, gap, rfl, hgap, hcomment, happended⟩ := h.appended
  by_cases ho : Lexeme.opensComment false gap
  · refine .inl ⟨hcomment ho, fun tail hf hn => ?_⟩
    obtain ⟨steps, rounds, s, hrounds, hs, hrun⟩ := happended tail hf
    obtain ⟨m, rfl⟩ : ∃ m, rounds = m + 1 := ⟨rounds - 1, by omega⟩
    have hend : Lexeme.pastBlank (gap ++ tail) = [] := Lexeme.pastBlank_append_comment hgap ho hn
    have hread : (loop (operation params steps (expression params steps)) (m + 1) ops >>= fun ops =>
        pure (Expr.ofChain first ops)).Reads true (gap ++ tail) (.ofChain first ops) true
          (Lexeme.pastBlank (gap ++ tail)) :=
      (operations_read_end (by rw [hend]; rfl) ops).bind (.pure rfl)
    obtain ⟨_, s', hs', rfl, -⟩ := hread s hs
    exact run_eq_ok.2 ⟨s', hrun.trans hs'⟩
  · refine .inr fun tail op literal hf htail hop hl => ?_
    obtain ⟨steps, rounds, s, hrounds, hs, hrun⟩ := happended tail hf
    have hpos := List.length_pos_of_ne_nil htail.ne_nil
    obtain ⟨m, rfl⟩ : ∃ m, rounds = m + 2 := ⟨rounds - 2, by omega⟩
    have htail := htail.append hgap (Bool.eq_false_iff.2 ho)
    cases ha : Atom.ofLiteral? literal with
    | some a =>
      have hread : (loop (operation params steps (expression params steps)) (m + 2) ops >>= fun ops =>
          pure (Expr.ofChain first ops)).Reads true (gap ++ tail)
            ((Expr.ofChain first ops).insert op (.atom a)) true [] :=
        (operations_read_operation hl hop htail ha).bind (.pure (ofChain_concat ..))
      obtain ⟨_, s', hs', rfl, -⟩ := hread s hs
      rw [run_eq_ok.2 ⟨s', hrun.trans hs'⟩]
      rfl
    | none =>
      have hfails : (loop (operation params steps (expression params steps)) (m + 2) ops >>= fun ops =>
          pure (Expr.ofChain first ops)).FailsWith true (gap ++ tail) .integerRange :=
        (operations_fail_operation hl hop htail ha).bind
      obtain ⟨err, herr, -⟩ := hfails s hs
      rw [run_eq_error.2 (hrun.trans herr)]
      rfl

end Grammar

namespace Lexeme

variable {sign : Operator} {d : List Char}

theorem followsOperand_blank (text : List Char) : FollowsOperand (' ' :: text) :=
  followsOperand_of_blankWidth (by simp [blankWidth, isBlank])

theorem followsOperand_sign (hs : sign.IsSign) (h : Decimal.IsUnsigned d) :
    FollowsOperand (sign.text.toList ++ d) where
  breaks := by
    rcases hs with rfl | rfl
    · rintro _ ⟨⟩
      exact .inr (.inr rfl)
    · rintro _ ⟨⟩
      exact .inr (.inl rfl)
  next := .inr ⟨sign, nextKind_of_lexeme (next?_sign hs h)⟩

theorem newline_not_mem_sign (hs : sign.IsSign) (h : Decimal.IsUnsigned d) :
    '\n' ∉ sign.text.toList ∧ '\n' ∉ d := by
  refine ⟨?_, fun hmem => ?_⟩
  · rcases hs with rfl | rfl <;> decide
  · exact absurd (isDigit_or_point_of_isUnsigned h _ hmem) (by decide)

end Lexeme

/-- **A sign is part of a number exactly where an operand is expected.** Behind an expression that is read
up to the end of its text a sign is an operator, whether blanks stand around it or not; behind an operator
it is a part of the literal, which is the right operand. -/
theorem parseExpr_sign [PatternCompiler] {s : String} {params : Params} {e : Expr}
    (h : Grammar.ReadsToEnd params s.toList e) {sign : Operator} (hs : sign.IsSign) {d : String}
    (hd : Decimal.IsUnsigned d.toList) :
    (parseExpr (s ++ sign.text ++ d) params).toOption =
        (parseExpr (s ++ " " ++ sign.text ++ " " ++ d) params).toOption ∧
      (¬Grammar.EndsInComment params s.toList →
        (parseExpr (s ++ sign.text ++ d) params).toOption =
          (Atom.ofLiteral? d.toList).map fun a => e.insert sign (.atom a)) ∧
      ∀ (word : String) (op : Operator), Lexeme.IsOperator word.toList op → ¬op.isMatch →
        ¬Grammar.EndsInComment params s.toList →
          ∀ a, Atom.ofLiteral? (sign.text ++ d).toList = some a →
            parseExpr (s ++ " " ++ word ++ " " ++ sign.text ++ d) params =
              .ok (e.insert op (.atom a)) := by
  have htight : (s ++ sign.text ++ d).toList = s.toList ++ (sign.text.toList ++ d.toList) := by
    simp
  have hspaced : (s ++ " " ++ sign.text ++ " " ++ d).toList =
      s.toList ++ ' ' :: (sign.text.toList ++ ' ' :: d.toList) := by
    simp
  have hnumber := Lexeme.isLiteral_of_isUnsigned hd (.inl rfl)
  have hsign : ¬sign.isMatch := by
    rcases hs with rfl | rfl <;> decide
  rw [parseExpr, htight, parseExpr, hspaced]
  rcases h.appended_cases with ⟨hcomment, hend⟩ | hread
  · obtain ⟨hn, hn'⟩ := Lexeme.newline_not_mem_sign hs hd
    refine ⟨?_, fun hno => absurd hcomment hno, fun _ _ _ _ hno => absurd hcomment hno⟩
    rw [hend _ (Lexeme.followsOperand_sign hs hd) (by simp [hn, hn']),
      hend _ (Lexeme.followsOperand_blank _) (by simp [hn, hn'])]
  · have htight := hread _ _ _ (Lexeme.followsOperand_sign hs hd) (Lexeme.isOperation_sign hs hd) hsign hnumber
    have hspaced := hread _ _ _ (Lexeme.followsOperand_blank _)
      (Lexeme.isOperation_spaced (Lexeme.isOperator_text sign) hnumber) hsign hnumber
    refine ⟨htight.trans hspaced.symm, fun _ => htight, fun word op hword hop _ a ha => ?_⟩
    have hliteral := Lexeme.isLiteral_sign hs hd
    have htext : (s ++ " " ++ word ++ " " ++ sign.text ++ d).toList =
        s.toList ++ ' ' :: (word.toList ++ ' ' :: (sign.text.toList ++ d.toList)) := by
      simp
    have hread := hread _ _ _ (Lexeme.followsOperand_blank _) (Lexeme.isOperation_spaced hword hliteral) hop
      hliteral
    rw [← String.toList_append, ha, String.toList_append] at hread
    rw [parseExpr, htext]
    generalize (Grammar.expression params _).run _ = r at hread ⊢
    cases r with
    | error => cases hread
    | ok => exact congrArg Except.ok (Option.some.inj hread)

/-- Behind a regular expression, with a comment that ends with its line. -/
theorem parseExpr_sign_behind_regex :
    let s := "f(x) =~ /a/ -- c\n"
    let e : Expr := .binary .matching (.call "f" [.atom (.var ⟨"x", .unknown⟩)]) (.atom (.regex "a"))
    (Grammar.ReadsToEnd .empty s.toList e ∧ Operator.sub.IsSign ∧
      Decimal.IsUnsigned ".5".toList ∧ ¬Grammar.EndsInComment .empty s.toList ∧
      Lexeme.IsOperator "and".toList .and ∧ ¬Operator.and.isMatch) ∧
    (parseExpr (s ++ "-" ++ ".5") .empty).toOption =
        some (e.insert .sub (.atom (.number (Decimal.double ".5".toList)))) ∧
      (parseExpr (s ++ " " ++ "-" ++ " " ++ ".5") .empty).toOption =
        some (e.insert .sub (.atom (.number (Decimal.double ".5".toList)))) ∧
      parseExpr (s ++ " " ++ "and" ++ " " ++ "-" ++ ".5") .empty =
        .ok (e.insert .and (.atom (.number (Decimal.double "-.5".toList)))) := by
  intro s e
  have hread : Grammar.ReadsToEnd .empty s.toList e := by
    decide +kernel
  have hcomment : ¬Grammar.EndsInComment .empty s.toList := by
    decide +kernel
  have hnumber : Decimal.IsUnsigned ".5".toList := by
    have h : ".5".toList = [] ++ '.' :: ['5'] := by
      decide
    rw [h]
    exact .decimal (by simp) ⟨by simp, List.forall_mem_singleton.2 rfl⟩
  obtain ⟨hspaced, htight, hoperator⟩ := parseExpr_sign hread (.inr rfl : Operator.sub.IsSign) hnumber
  have htight := htight hcomment
  exact ⟨⟨hread, .inr rfl, hnumber, hcomment, rfl, nofun⟩, htight, hspaced.symm.trans htight,
    hoperator "and" .and rfl nofun hcomment _ rfl⟩

end InfluxQL

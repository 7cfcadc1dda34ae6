import InfluxQL.Proofs.Grammar.Concatenation
import InfluxQL.Proofs.Grammar.Course
import InfluxQL.Proofs.Grammar.LastOperand
import InfluxQL.Proofs.Grammar.Remainder
import InfluxQL.Proofs.Syntax.Equality
import InfluxQL.Proofs.Syntax.Traversal

/-!
# The operator that a field is rejected for

A field must not hold an operator that belongs in a `WHERE` clause. This is checked as soon as its
expression has been read, before anything behind it is looked at, and the error tells the operator that
comes first in the tree and stands at the first token of the field. No other error does.

* `Grammar.AtField`: a statement is read up to a field;
* `Grammar.behindExpression`: what follows the expression of a field;
* `Grammar.AtField.error_place`: where errors are if no operator is out of place;
* `ParseError.Blames.offset_le`: an error is not about what has been read before;
* `parseStatement_conditionInField`: when the error is raised, and for which operator.
-/

namespace InfluxQL

open Production Scanner TokenStream

/-- An error about tokens that were given on the way from a scanner is not about what is before it. -/
theorem ParseError.Blames.offset_le {e : ParseError} {h : List Event} {c d : Scanner}
    (he : e.Blames h) (hp : c.Passes h d) (hsteps : e.cause ≠ .outOfSteps) :
    c.offset ≤ e.span.start := by
  have hgiven : ∀ {before u t behind}, c.Passes (before ++ .given u t :: behind) d →
      c.offset ≤ t.span.start := by
    intro before u t behind hp
    obtain ⟨d₁, hbefore, hrest⟩ := hp.append_inv
    obtain ⟨_, hm, -⟩ := hrest.cons_inv
    rw [hm.start_eq]
    exact hbefore.offset_le
  cases he with
  | unexpected last error =>
    subst last error
    exact hgiven hp
  | spans expected pos start hspans =>
    obtain ⟨before, u, behind, t', rfl, -, -⟩ := hspans
    rw [start]
    exact hgiven hp
  | outOfSteps cause => exact absurd cause hsteps

/-- The wording tells the operator. -/
theorem Cause.conditionInField_text_injective {op op' : Operator}
    (h : (Cause.conditionInField op).text = (Cause.conditionInField op').text) : op = op' := by
  have htext : "invalid operator " ++ op.text
      ++ " in SELECT clause; operator is intended for WHERE clause" = "invalid operator " ++ op'.text
      ++ " in SELECT clause; operator is intended for WHERE clause" := h
  rw [String.append_left_inj, String.append_right_inj] at htext
  exact Operator.text_injective htext

namespace Grammar

variable [PatternCompiler]

/-! ### Up to a field -/

/-- The statement at the beginning of a text has been read up to field number `i`: `SELECT`, and the
fields before with the commas behind them. -/
structure AtField (params : Params) (source : String) (i : Nat) (s : TokenStream) : Prop where
  select : (TokenStream.start source.toList).scanSignificant.1.kind = .keyword .SELECT
  fields : ∃ fields, firstRounds (furtherField params (stepsFor source.toList)) i []
    (TokenStream.start source.toList).scanSignificant.2 = .ok (fields, s)

variable {params : Params} {n : Nat} {c : Scanner} {s s' : TokenStream}

/-- Behind the comma after a field an operand can stand. -/
theorem furtherField_comesTo (fields : List Field) (hf : c.afterOperand = false) :
    (furtherField params n fields).ComesTo c
      (Sum.elim (fun _ d => c.Reaches d ∧ d.afterOperand = false) fun _ _ => True) := by
  intro s r s' hs hrun
  have hleads : (furtherFieldTrace params n fields).Leads c
      (Sum.elim (fun _ => BeforeField c) fun _ h d => Course c h d 2) [] c :=
    furtherField_leads fields ((Course.start c).mono (by omega)) hf
  have hends := hleads s hs
  rw [hrun] at hends
  obtain ⟨d, hgoes, hd⟩ := hends
  cases r with
  | inl fields' => exact ⟨d, ⟨⟨_, hd.1.passes⟩, hd.2⟩, hgoes⟩
  | inr fields' => exact ⟨d, trivial, hgoes⟩

/-- A field begins in the text behind `SELECT`, where an operand can stand. -/
theorem AtField.exists_scanner {source : String} {i : Nat} (h : AtField params source i s) :
    ∃ c, GoesOn c s ∧ c.source = source.toList ∧ c.afterOperand = false ∧
      (TokenStream.start source.toList).scanSignificant.1.span.start < c.offset := by
  obtain ⟨hselect, fields, hfields⟩ := h
  have hstart : GoesOn (Scanner.start source.toList) (TokenStream.start source.toList) := .clear none
  have hsource : (Scanner.start source.toList).source = source.toList := rfl
  generalize Scanner.start source.toList = b at hstart hsource
  rw [hstart.scanSignificant_eq] at hselect hfields ⊢
  have hround : ∀ (fields : List Field) d, b.pastBlank.scan.2.Reaches d ∧ d.afterOperand = false →
      (furtherField params (stepsFor source.toList) fields).ComesTo d
        (Sum.elim (fun _ d' => b.pastBlank.scan.2.Reaches d' ∧ d'.afterOperand = false)
          fun _ _ => True) := by
    intro fields d hd
    refine (furtherField_comesTo fields hd.2).mono fun r d' hr => ?_
    cases r with
    | inl fields' => exact ⟨hd.1.trans hr.1, hr.2⟩
    | inr fields' => trivial
  obtain ⟨c, ⟨⟨evs, hpasses⟩, hf⟩, hgoes⟩ := ComesTo.firstRounds hround i
    ⟨Reaches.refl _, afterOperand_scan hselect rfl⟩ _ _ _ (goesOn_justRead _) hfields
  refine ⟨c, hgoes, ?_, hf, ?_⟩
  · rw [← hsource]
    exact (hpasses.source_eq.trans (source_scan _)).trans moves_pastBlank.source_eq
  · rw [start_scan]
    have hlt : b.pastBlank.offset < b.pastBlank.scan.2.offset :=
      offset_lt_scan (by rw [hselect]; nofun)
    exact Nat.lt_of_lt_of_le hlt hpasses.offset_le

/-! ### Behind the expression of a field -/

/-- A comma behind the fields read so far, and further fields, if there is a comma. So many may follow. -/
def moreFields (params : Params) (steps rounds : Nat) (fields : List Field) :
    Production (List Field) := do
  let t ← scan
  if t.kind = .comma then loop (furtherField params steps) rounds fields
  else
    unscan
    pure fields

def moreFieldsTrace (params : Params) (steps rounds : Nat) (fields : List Field) :
    Trace (moreFields params steps rounds fields) :=
  .lookFor (fun _ => .loop .field (furtherFieldTrace params steps) rounds fields) (.pure fields)

/-- What follows the expression of a field behind those read so far: its name, further fields, sources
and the condition. -/
def behindExpression (params : Params) (steps rounds : Nat) (fields : List Field) (e : Expr) :
    Production (List Field × List Source × Option Expr) := do
  let name ← fieldName?
  skipBlank
  let fields ← moreFields params steps rounds (fields ++ [⟨e, name⟩])
  behindFields params steps fun sources condition => pure (fields, sources, condition)

def behindExpressionTrace (params : Params) (steps rounds : Nat) (fields : List Field) (e : Expr) :
    Trace (behindExpression params steps rounds fields e) :=
  fieldNameTrace.bind fun _ => Trace.skipBlank.bind fun _ =>
    (moreFieldsTrace params steps rounds _).bind fun _ =>
      behindFieldsTrace params steps fun _ _ => .pure _

/-- A field whose expression has been read, and the fields behind it, which are not looked at if an
operator is out of place. -/
theorem loop_furtherField {e : Expr} (he : expression params n s.scanSignificant.2.unscan = .ok (e, s'))
    (m : Nat) (fields : List Field) : loop (furtherField params n) (m + 1) fields s =
      (match e.firstCondition? with
        | some op => failAt s.scanSignificant.1 (.conditionInField op)
        | none => fieldName? >>= fun name => Production.skipBlank >>= fun _ =>
            moreFields params n m (fields ++ [Field.mk e name]) : Production (List Field)) s' := by
  have hfirst : Production.scanSignificant s = .ok (s.scanSignificant.1, s.scanSignificant.2) := rfl
  have hunscan : Production.unscan s.scanSignificant.2 = .ok ((), s.scanSignificant.2.unscan) := rfl
  rw [loop, furtherField, field]
  simp only [bind_assoc]
  rw [bind_of_ok hfirst, bind_of_ok hunscan, bind_of_ok he]
  cases e.firstCondition? with
  | some op => rfl
  | none =>
    simp only [bind_assoc, pure_bind]
    refine congrFun (congrArg (fieldName? >>= ·) (funext fun name => ?_)) s'
    refine congrArg (Production.skipBlank >>= ·) (funext fun _ => ?_)
    rw [moreFields]
    refine congrArg (Production.scan >>= ·) (funext fun t => ?_)
    split <;> rfl

/-- A statement fails if what follows `SELECT` does. -/
theorem parseStatement_eq_error_iff {source : String} {err : ParseError}
    (h : (TokenStream.start source.toList).scanSignificant.1.kind = .keyword .SELECT) :
    parseStatement source params = .error err ↔
      select params (stepsFor source.toList) (TokenStream.start source.toList).scanSignificant.1
        (TokenStream.start source.toList).scanSignificant.2 = .error err := by
  have hfirst : Production.scanSignificant (TokenStream.start source.toList) =
      .ok ((TokenStream.start source.toList).scanSignificant.1,
        (TokenStream.start source.toList).scanSignificant.2) := rfl
  rw [parseStatement, run_eq_error, statement, bind_of_ok hfirst, if_pos h]
  cases hselect : select params _ _ _ with
  | error e => rw [bind_of_error hselect, Except.error.injEq, Except.error.injEq]
  | ok r =>
    rw [bind_of_ok hselect]
    refine iff_of_false ?_ ?_
    · rintro ⟨⟩
    · rintro ⟨⟩

/-- There are rounds left for the field and for those behind it. -/
theorem AtField.exists_rounds {source : String} {i : Nat} (h : AtField params source i s) :
    ∃ m fields, loop (furtherField params (stepsFor source.toList)) (stepsFor source.toList) []
        (TokenStream.start source.toList).scanSignificant.2 =
      loop (furtherField params (stepsFor source.toList)) (m + 1) fields s := by
  obtain ⟨hselect, fields, hfields⟩ := h
  rcases Nat.lt_or_ge i (stepsFor source.toList) with hlt | hge
  · obtain ⟨m, hm⟩ : ∃ m, stepsFor source.toList = i + (m + 1) := ⟨stepsFor source.toList - i - 1, by omega⟩
    refine ⟨m, fields, ?_⟩
    conv_lhs => arg 2; rw [hm]
    exact loop_of_firstRounds hfields (m + 1)
  · obtain ⟨err, herr, hcause⟩ := loop_of_le_firstRounds hfields hge
    have hfails : parseStatement source params = .error err := by
      rw [parseStatement_eq_error_iff hselect, select_eq]
      exact bind_of_error herr
    exact absurd hcause (parseStatement_cause_ne hfails)

theorem behindExpression_leads {c₀ c : Scanner} {h : List Event} (hc : Course c₀ h c 2) (m : Nat)
    (fields : List Field) (e : Expr) :
    (behindExpressionTrace params n m fields e).Leads c₀ (fun _ h c => Course c₀ h c 2) h c := by
  refine (fieldName_leads hc).bind fun name h₁ c₁ _ hc₁ => ?_
  refine .bind (ψ := fun _ h c => Course c₀ h c 2) (.skipBlank hc₁.blank) fun _ h₂ c₂ _ hc₂ => ?_
  have hmore : ∀ fields, (moreFieldsTrace params n m fields).Leads c₀
      (fun _ h c => Course c₀ h c 2) h₂ c₂ := by
    intro fields
    exact .lookFor hc₂ (by omega) rfl
      (fun t h₃ c₃ _ ht => furtherFields_leads m fields ⟨ht.course, ht.afterOperand_eq⟩)
      fun _ _ hc₃ => .pure hc₃
  exact (hmore _).bind fun fields h₃ c₃ _ hc₃ => behindFields_leads hc₃ fun _ _ _ _ _ hc₄ => .pure hc₄

/-- What is wrong behind the expression of a field does not concern what is before. -/
theorem behindExpression_offset_le {m : Nat} {fields : List Field} {e : Expr} {err : ParseError}
    (hs : GoesOn c s) (h : behindExpression params n m fields e s = .error err)
    (hsteps : err.cause ≠ .outOfSteps) : c.offset ≤ err.span.start := by
  have hleads : (behindExpressionTrace params n m fields e).Leads c (fun _ h d => Course c h d 2) [] c :=
    behindExpression_leads ((Course.start c).mono (by omega)) m fields e
  have hends := hleads s hs
  rw [h] at hends
  obtain ⟨hblames, d, hd⟩ := hends
  exact hblames.offset_le hd.passes hsteps

/-- Where no operator is out of place in a field, errors are about what is behind its expression, or about
the first word of the statement. -/
theorem AtField.error_place {source : String} {i : Nat} (h : AtField params source i s) {e : Expr}
    (he : expression params (stepsFor source.toList) s.scanSignificant.2.unscan = .ok (e, s'))
    (hs' : GoesOn c s') (hnone : e.firstCondition? = none) {err : ParseError}
    (herr : parseStatement source params = .error err) :
    c.offset ≤ err.span.start ∨
      err.span = (TokenStream.start source.toList).scanSignificant.1.span := by
  obtain ⟨m, fields, hloop⟩ := h.exists_rounds
  have hselect := (parseStatement_eq_error_iff h.select).1 herr
  have hfield := loop_furtherField he m fields
  rw [hnone] at hfield
  rw [select_eq, bind_of_eq hloop, bind_of_eq hfield] at hselect
  have hsplit : ∀ first, ((fieldName? >>= fun name => Production.skipBlank >>= fun _ =>
        moreFields params (stepsFor source.toList) m (fields ++ [⟨e, name⟩])) >>= fun fields =>
      behindFields params (stepsFor source.toList) fun sources condition =>
        validated first ⟨fields, sources, condition, !fields.any (·.expr.containsCall)⟩) =
      behindExpression params (stepsFor source.toList) m fields e >>= fun r =>
        validated first ⟨r.1, r.2.1, r.2.2, !r.1.any (·.expr.containsCall)⟩ := by
    intro first
    simp only [behindExpression, bind_assoc, behindFields_bind, pure_bind]
  rw [hsplit] at hselect
  cases hbehind : behindExpression params (stepsFor source.toList) m fields e s' with
  | error err' =>
    rw [bind_of_error hbehind] at hselect
    cases hselect
    exact .inl (behindExpression_offset_le hs' hbehind (parseStatement_cause_ne herr))
  | ok r =>
    rw [bind_of_ok hbehind] at hselect
    unfold validated at hselect
    generalize Select.validate _ = checked at hselect
    cases checked with
    | ok _ => cases hselect
    | error fault =>
      cases hselect
      exact .inr rfl

end Grammar

namespace Expr

theorem ownCondition?_eq_some_iff {x : Expr} {op : Operator} :
    x.ownCondition? = some op ↔ op.isCondition ∧ ∃ l r, x = binary op l r := by
  cases x with
  | binary op' l r =>
    rw [ownCondition?]
    split
    · next h =>
      rw [Option.some.injEq]
      constructor
      · rintro rfl
        exact ⟨h, l, r, rfl⟩
      · rintro ⟨-, _, _, hx⟩
        cases hx
        rfl
    · next h =>
      refine iff_of_false (Option.some_ne_none op).symm ?_
      rintro ⟨hop, _, _, hx⟩
      cases hx
      exact h hop
  | _ =>
    refine iff_of_false (Option.some_ne_none op).symm ?_
    rintro ⟨-, _, _, hx⟩
    cases hx

theorem ownCondition?_eq_none_iff {x : Expr} :
    x.ownCondition? = none ↔ ∀ op l r, x = binary op l r → op.isCondition = false := by
  rw [Option.eq_none_iff_forall_ne_some]
  constructor
  · rintro h op l r rfl
    exact Bool.eq_false_iff.2 fun hop => h op (ownCondition?_eq_some_iff.2 ⟨hop, l, r, rfl⟩)
  · intro h op hop
    obtain ⟨hop, l, r, hx⟩ := ownCondition?_eq_some_iff.1 hop
    rw [h op l r hx] at hop
    cases hop

/-- The operator that is found first is that of the first operation in the listing. -/
theorem firstCondition?_eq_some_iff {e : Expr} {op : Operator} :
    e.firstCondition? = some op ↔ ∃ earlier l r later,
      e.preorder = earlier ++ binary op l r :: later ∧ op.isCondition ∧
        ∀ x ∈ earlier, ∀ op' l' r', x = binary op' l' r' → op'.isCondition = false := by
  rw [firstCondition?_eq, List.findSome?_eq_some_iff]
  simp only [ownCondition?_eq_some_iff, ownCondition?_eq_none_iff]
  constructor
  · rintro ⟨earlier, _, later, h, ⟨hop, l, r, rfl⟩, hearlier⟩
    exact ⟨earlier, l, r, later, h, hop, hearlier⟩
  · rintro ⟨earlier, l, r, later, h, hop, hearlier⟩
    exact ⟨earlier, _, later, h, ⟨hop, l, r, rfl⟩, hearlier⟩

end Expr

open Grammar in
/-- **The check of a field tells the first offender.** When the fields before field number `i` have been
accepted, and the text from the first token of this field on is that of an expression, then the
statement fails at this token with the message about an operator exactly if this is the operator of the
first binary operation in the expression, parents first and left to right, that belongs in a `WHERE`
clause. -/
theorem parseStatement_conditionInField [PatternCompiler] {source before rest : String}
    {params : Params} {i : Nat} {s : TokenStream} {e : Expr} (hfield : AtField params source i s)
    (hsource : source = before ++ rest)
    (hbefore : before.utf8ByteSize = s.scanSignificant.1.span.start)
    (he : parseExpr rest params = .ok e) (op : Operator) :
    (∃ err, parseStatement source params = .error err ∧
        err.messageText? = some (Cause.conditionInField op).text ∧
        err.pos = s.scanSignificant.1.pos ∧ err.span = s.scanSignificant.1.span) ↔
      ∃ earlier l r later, e.preorder = earlier ++ .binary op l r :: later ∧ op.isCondition ∧
        ∀ x ∈ earlier, ∀ op' l' r', x = .binary op' l' r' → op'.isCondition = false := by
  rw [← Expr.firstCondition?_eq_some_iff]
  obtain ⟨c, hs, hc, hf, hfirst⟩ := hfield.exists_scanner
  -- The field begins where the scanner is behind blanks, and the rest of the text is ahead there.
  have hstart : s.scanSignificant.1.span.start = c.pastBlank.offset := by
    rw [hs.scanSignificant_eq]
    exact start_scan _
  have hle : c.offset ≤ c.pastBlank.offset := moves_pastBlank.offset_le
  have hrest : c.pastBlank.cursor.ahead = rest.toList := by
    have htext : c.pastBlank.cursor.behind.reverse ++ c.pastBlank.cursor.ahead =
        before.toList ++ rest.toList := by
      rw [← String.toList_append, ← hsource, ← hc]
      exact moves_pastBlank.source_eq
    refine (append_inj_of_byteSize htext ?_).2
    rw [byteSize_reverse, ← c.pastBlank.cursor.offset_eq, ← utf8ByteSize_eq_byteSize, hbefore, hstart]
    rfl
  have hsteps : stepsFor c.pastBlank.cursor.ahead ≤ stepsFor source.toList := by
    rw [hrest, hsource, String.toList_append, stepsFor, stepsFor, List.length_append]
    omega
  have hunscan : GoesOn c.pastBlank s.scanSignificant.2.unscan := by
    rw [hs.scanSignificant_eq]
    exact goesOn_unscan_justRead _
  rw [parseExpr, ← hrest] at he
  obtain ⟨s', hrun, c', hs', -, hlt⟩ :=
    expression_within hunscan ((afterOperand_pastBlank c).trans hf) hsteps he
  cases hop : e.firstCondition? with
  | some op' =>
    obtain ⟨m, fields, hloop⟩ := hfield.exists_rounds
    have hfails : parseStatement source params =
        .error (.atToken s.scanSignificant.1 (.conditionInField op')) := by
      have hfails := loop_furtherField hrun m fields
      rw [hop] at hfails
      rw [parseStatement_eq_error_iff hfield.select, select_eq, bind_of_eq hloop]
      exact bind_of_error hfails
    rw [Option.some.injEq]
    constructor
    · rintro ⟨err, herr, hmessage, -, -⟩
      rw [hfails] at herr
      cases herr
      exact Cause.conditionInField_text_injective (Option.some.inj hmessage)
    · rintro rfl
      exact ⟨_, hfails, rfl, rfl, rfl⟩
  | none =>
    refine iff_of_false ?_ (Option.some_ne_none op).symm
    rintro ⟨err, herr, -, -, hspan⟩
    rcases hfield.error_place hrun hs' hop herr with h | h
    · rw [hspan, hstart] at h
      omega
    · rw [hspan] at h
      rw [← h, hstart] at hfirst
      omega

open Grammar in
/-- In `SELECT a, f(b = 1) + (c AND d) FROM m` the equality is the first. -/
theorem parseStatement_conditionInField_call :
    let source := "SELECT a, f(b = 1) + (c AND d) FROM m"
    let rest := "f(b = 1) + (c AND d) FROM m"
    let name (text : String) : Expr := .atom (.var ⟨text, .unknown⟩)
    let call : Expr := .call "f" [.binary .eq (name "b") (.atom (.integer 1))]
    let e : Expr := .binary .add call (.paren (.binary .and (name "c") (name "d")))
    let s := (firstRounds (furtherField .empty (stepsFor source.toList)) 1 []
      (TokenStream.start source.toList).scanSignificant.2).toOption.elim default Prod.snd
    AtField .empty source 1 s ∧ source = "SELECT a, " ++ rest ∧
      "SELECT a, ".utf8ByteSize = s.scanSignificant.1.span.start ∧ parseExpr rest .empty = .ok e ∧
      ∃ err, parseStatement source .empty = .error err ∧
        err.messageText? = some (Cause.conditionInField .eq).text ∧
        err.pos = s.scanSignificant.1.pos ∧ err.span = s.scanSignificant.1.span := by
  intro source rest name call e s
  have hfield : AtField .empty source 1 s :=
    ⟨by decide +kernel, [⟨name "a", none⟩], by decide +kernel⟩
  have hsplit : source = "SELECT a, " ++ rest := by decide +kernel
  have hsize : "SELECT a, ".utf8ByteSize = s.scanSignificant.1.span.start := by decide +kernel
  have hrest : parseExpr rest .empty = .ok e := by decide +kernel
  refine ⟨hfield, hsplit, hsize, hrest, ?_⟩
  refine (parseStatement_conditionInField hfield hsplit hsize hrest .eq).2 ?_
  exact ⟨[e, call], name "b", .atom (.integer 1), _, rfl, rfl,
    by simp [e, call, Operator.isCondition]⟩

end InfluxQL

import InfluxQL.Proofs.Grammar.Concatenation
import InfluxQL.Proofs.Grammar.LastOperand
import InfluxQL.Proofs.Grammar.Parting
import InfluxQL.Proofs.Syntax.Equality
import InfluxQL.Proofs.Token.Lossless

/-!
# Text behind an expression

An expression that reaches the end of its text is read in the same way up to its last operand when more
text stands behind, and there the scanner knows that an operand has ended. The text behind may start with
a blank, or with an operator at once. If the expression ends within a comment, this goes on.

* `TokenStream.GoesOn.eq_of_blank`: before a blank a stream tells the scanner from which it goes on;
* `Grammar.ReadsToEnd`: an expression is read up to the end of the text;
* `Grammar.EndsInComment`: the last blank that is read ends within a comment;
* `Grammar.ReadsToEnd.appended`: what is read when more text stands behind.
-/

namespace InfluxQL

open Production Scanner TokenStream

namespace TokenStream

variable {c d : Scanner} {s : TokenStream}

/-- A stream tells the next token of the scanner from which it goes on. -/
theorem GoesOn.scan_unique (hc : GoesOn c s) (hd : GoesOn d s) : c.scan = d.scan := by
  obtain ⟨htoken, hread⟩ := Prod.mk.inj (hc.scan_eq.symm.trans hd.scan_eq)
  exact Prod.ext htoken (congrArg TokenStream.scanner hread)

/-- It tells the place. -/
theorem GoesOn.cursor_eq (hc : GoesOn c s) (hd : GoesOn d s) : c.cursor = d.cursor := by
  have hseek : ∀ e : Scanner, e.scan.2.cursor.seek e.scan.1.span.start = e.cursor := by
    intro e
    rw [start_scan, Cursor.seek_offset (source_scan e)]
  rw [← hseek c, ← hseek d, hc.scan_unique hd]

/-- Before a blank it tells the scanner. -/
theorem GoesOn.eq_of_blank (hc : GoesOn c s) (hd : GoesOn d s)
    (hblank : Lexeme.blankWidth false c.cursor.ahead ≠ 0) : c = d := by
  have hcursor := hc.cursor_eq hd
  have hlast : ∀ e : Scanner, Lexeme.blankWidth false e.cursor.ahead ≠ 0 → e.scan.2.last = e.last := by
    intro e he
    rw [scan_of_lexeme (Lexeme.next?_of_blank _ he)]
    rfl
  have hlast_eq : c.last = d.last := by
    rw [← hlast c hblank, ← hlast d (hcursor ▸ hblank), hc.scan_unique hd]
  obtain ⟨cursor, last⟩ := c
  obtain ⟨cursor', last'⟩ := d
  obtain rfl : cursor = cursor' := hcursor
  obtain rfl : last = last' := hlast_eq
  rfl

end TokenStream

/-- Where an operand ends, more blanks can stand before either text. -/
theorem Scanner.parting_append {fork : Scanner} {gap tail rest : List Char}
    (hbehind : fork.BehindOperand) (hahead : fork.cursor.ahead = gap ++ '\n' :: rest)
    (hgap : Lexeme.blankWidth false gap = gap.length) (htail : Lexeme.FollowsOperand tail) :
    Parting fork (gap ++ tail) where
  behind := hbehind
  blank := by
    rw [hahead, Lexeme.blankWidth_append_newline _ hgap]
    omega
  follows := htail.append hgap
  first := by
    rw [hahead]
    cases gap with
    | nil => exact .inl rfl
    | cons x gap => exact .inr rfl

namespace Grammar

variable [PatternCompiler]
variable {params : Params} {n j : Nat} {nested : Production Expr} {c fork : Scanner}
  {s s' s₁ : TokenStream} {first e : Expr} {ops ops' : List (Operator × Expr)} {text gap : List Char}

omit [PatternCompiler] in
/-- Behind an operand that no dot or colon follows, and no slash, its last token tells that it ends. -/
theorem OperandEnds.behindOperand (h : OperandEnds c)
    (hne : ∀ x ∈ ['/', ':', '.'], c.cursor.ahead.head? ≠ some x) : c.BehindOperand := by
  rcases h with h | (h | h) | h
  · exact h
  · exact absurd h (hne _ (by simp))
  · exact absurd h (hne _ (by simp))
  · exact absurd h (hne _ (by simp))

/-- The round that ends a chain leaves nothing but blanks, if nothing is left. -/
theorem operation_ends_chain (hs : GoesOn c s) (hsource : c.source = text)
    (h : operation params n nested ops s = .ok (.inr ops', s')) (hend : s'.offset = byteSize text) :
    ops' = ops ∧ Lexeme.blankWidth false c.cursor.ahead = c.cursor.ahead.length := by
  obtain ⟨t, s₁, ht, h⟩ := bind_eq_ok.1 h
  have he : (c.pastBlank.scan.1, justRead c.pastBlank) = (t, s₁) := by
    rw [← hs.scanSignificant_eq]
    exact Except.ok.inj ht
  cases he
  generalize c.pastBlank.scan.1.kind.operator? = op at h
  cases op with
  | none =>
    cases h
    rw [(goesOn_unscan_justRead c.pastBlank).offset_eq] at hend
    have hnil := (offset_eq_byteSize_iff (moves_pastBlank.source_eq.trans hsource)).1 hend
    rw [ahead_pastBlank] at hnil
    exact ⟨rfl, Nat.le_antisymm (Lexeme.blankWidth_le _ _) (List.drop_eq_nil_iff.1 hnil)⟩
  | some op =>
    obtain ⟨rhs, s₂, -, h⟩ := bind_eq_ok.1 h
    cases h

/-- The chain with which an expression begins. -/
abbrev expressionChain (params : Params) (n j : Nat) : Production (Expr × List (Operator × Expr)) :=
  chainOf params n (expression params n) j

abbrev expressionChainTrace (params : Params) (n j : Nat) : Trace (expressionChain params n j) :=
  chainOfTrace params n (expressionTrace params n) j

theorem expressionChain_alike {L : Likeness} (hL : L.Lawful) (hparams : L.params params) {n n' : Nat}
    (hn : n ≤ n') (j : Nat) : L.AlikeFrom L.near (Likeness.Joint Eq L.near)
      (expressionChainTrace params n j) (expressionChain params n' j) :=
  chainOf_alike hL hn (expression_alike hL hparams hn) hparams j

/-- What is read from a text is also read when a line with a semicolon follows. -/
theorem expressionChain_continues {r : Expr × List (Operator × Expr)}
    (hrun : expressionChain params n j (TokenStream.start text) = .ok (r, s₁)) :
    ∃ d d' s₁', expressionChain params n j (TokenStream.start (text ++ ['\n', ';'])) = .ok (r, s₁') ∧
      Continues text [] d d' ∧ GoesOn d s₁ ∧ GoesOn d' s₁' := by
  have hstart : Continues text [] (Scanner.start text) (Scanner.start (text ++ ['\n', ';'])) :=
    ⟨rfl, rfl, .inl rfl⟩
  have halike : (Likeness.continuation text []).AlikeFrom _ (Likeness.Joint Eq _)
      (expressionChainTrace params n j) (expressionChain params n j) :=
    expressionChain_alike Likeness.continuation_lawful trivial (Nat.le_refl n) j
  have hmeets := halike _ _ _ _ hstart (.clear none) (.clear none)
  change Likeness.Meets _ _ _ _ (expressionChain params n j (TokenStream.start text))
    (expressionChain params n j (TokenStream.start (text ++ ['\n', ';']))) at hmeets
  rw [hrun] at hmeets
  generalize expressionChain params n j (TokenStream.start (text ++ ['\n', ';'])) = o at hmeets
  cases hmeets with
  | ok hq _ hgo hgo' =>
    obtain ⟨rfl, hcont⟩ := hq
    exact ⟨_, _, _, rfl, hcont, hgo, hgo'⟩
  | astray h =>
    rcases h with ⟨e, he, -⟩ | ⟨_, _, _, _, _, _, hm⟩
    · cases he
    · exact hm.elim

/-- If only blanks are left behind it, an operand has ended before the line with the semicolon. -/
theorem exists_fork (hrun : expressionChain params n j (TokenStream.start text) =
      .ok ((first, ops), s₁)) (hs : GoesOn c s₁)
    (hgap : Lexeme.blankWidth false c.cursor.ahead = c.cursor.ahead.length) :
    ∃ fork s₁', expressionChain params n j (TokenStream.start (text ++ ['\n', ';'])) =
        .ok ((first, ops), s₁') ∧
      (Scanner.start (text ++ ['\n', ';'])).Passes ((expressionChainTrace params n j).events
        (TokenStream.start (text ++ ['\n', ';']))) fork ∧
      fork.BehindOperand ∧ fork.cursor.ahead = c.cursor.ahead ++ ['\n', ';'] := by
  obtain ⟨d, d', s₁', hrun', hcont, hd, hd'⟩ := expressionChain_continues hrun
  obtain ⟨e, hends, he⟩ := chainOf_ends (expressionTrace params n) _ _ _ _ (.clear none) hrun'
  obtain ⟨fork, hfork, hgo⟩ := (expressionChainTrace params n j).passes
    (GoesOn.clear (c := Scanner.start (text ++ ['\n', ';'])) none)
  have hgo := hgo _ _ hrun'
  have hcursor : e.cursor = d'.cursor := he.cursor_eq hd'
  have hcursor' : fork.cursor = d'.cursor := hgo.cursor_eq hd'
  rw [hs.cursor_eq hd] at hgap ⊢
  rcases hcont.ahead with ha | ⟨-, ha⟩
  · have hblank : Lexeme.blankWidth false d'.cursor.ahead ≠ 0 := by
      rw [ha, Lexeme.blankWidth_append_newline _ hgap]
      omega
    have hbehind : e.BehindOperand := by
      refine OperandEnds.behindOperand hends fun x hx => ?_
      rw [hcursor]
      exact (Lexeme.breaks_of_blankWidth hblank).head?_ne_of_mem hx
    obtain rfl : e = fork := he.eq_of_blank hgo (by rwa [hcursor])
    exact ⟨_, _, hrun', hfork, hbehind, by rw [hcursor', ha]⟩
  · -- Then the newline would be the last character of an operand.
    exfalso
    have hbehind : e.BehindOperand := by
      refine OperandEnds.behindOperand hends fun x hx => ?_
      rw [hcursor, ha]
      simp only [List.mem_cons, List.not_mem_nil, or_false] at hx
      rcases hx with rfl | rfl | rfl <;> simp
    have hlast : e.cursor.behind.head? = some '\n' := by
      rw [hcursor, behind_of_semicolon hcont.source_eq ha]
      rfl
    obtain ⟨x, hx, hfirm⟩ := hbehind.firm
    rw [hlast] at hx
    cases hx
    cases hfirm

/-- An expression is read from the text, up to its end. -/
def ReadsToEnd (params : Params) (text : List Char) (e : Expr) : Prop :=
  ∃ s, expression params (stepsFor text) (TokenStream.start text) = .ok (e, s) ∧
    s.offset = byteSize text

/-- Among the tokens of the expression there is a blank up to the end of the text, and it ends within a
comment. -/
def EndsInComment (params : Params) (text : List Char) : Prop :=
  ∃ u t, Event.given u t ∈ (expressionTrace params (stepsFor text)).events (TokenStream.start text) ∧
    t.kind = .blank ∧ t.span.stop = byteSize text ∧ Lexeme.opensComment false t.lit.toList

instance : Decidable (ReadsToEnd params text e) :=
  decidable_of_iff ((expression params (stepsFor text) (TokenStream.start text)).toOption.any
    fun r => r.1 = e ∧ r.2.offset = byteSize text) <| by
    unfold ReadsToEnd
    generalize expression params (stepsFor text) (TokenStream.start text) = o
    cases o with
    | error => simp [Except.toOption]
    | ok r => simp [Except.toOption, Prod.ext_iff]

instance : Decidable (EndsInComment params text) :=
  decidable_of_iff (((expressionTrace params (stepsFor text)).events (TokenStream.start text)).any
    fun
      | .given _ t => t.kind = .blank ∧ t.span.stop = byteSize text ∧
        Lexeme.opensComment false t.lit.toList
      | _ => false) <| by
    rw [List.any_eq_true]
    constructor
    · rintro ⟨_ | _ | ⟨u, t⟩, hmem, h⟩
      · cases h
      · cases h
      · exact ⟨u, t, hmem, of_decide_eq_true h⟩
    · rintro ⟨u, t, hmem, h⟩
      exact ⟨_, hmem, decide_eq_true h⟩

/-- The blank behind the last operand is one of the tokens. -/
theorem endsInComment_of_gap (hj : j < text.length)
    (hrun : expressionChain params text.length j (TokenStream.start text) = .ok ((first, ops), s₁))
    (hs : GoesOn c s₁) (hsource : c.source = text)
    (hgap : Lexeme.blankWidth false c.cursor.ahead = c.cursor.ahead.length)
    (ho : Lexeme.opensComment false c.cursor.ahead) : EndsInComment params text := by
  have hblank : Lexeme.blankWidth false c.cursor.ahead ≠ 0 := by
    intro hw
    rw [hw] at hgap
    rw [List.length_eq_zero_iff.1 hgap.symm] at ho
    cases ho
  have hscan := scan_of_lexeme (Lexeme.next?_of_blank c.afterOperand hblank)
  have hkind : c.scan.1.kind = .blank := by
    rw [hscan]
    rfl
  refine ⟨c.blankUse, c.scan.1, mem_events_of_chainOf hj hrun ?_, hkind, ?_, ?_⟩
  · show _ ∈ Event.given (if s₁.scan.1.kind = .blank then .taken false else .returned) s₁.scan.1 :: _
    rw [hs.scan_eq]
    exact List.mem_cons_self
  · rw [stop_scan, ← pastBlank_of_blank hkind]
    refine (offset_eq_byteSize_iff (moves_pastBlank.source_eq.trans hsource)).2 ?_
    rw [ahead_pastBlank, Lexeme.pastBlank, hgap, List.drop_length]
  · have hlit : c.scan.1.lit.toList = c.cursor.ahead := by
      rw [hscan]
      exact String.toList_ofList.trans (List.take_of_length_le (Nat.le_of_eq hgap.symm))
    rwa [hlit]

/-- What is read up to the place is read when another text follows there. -/
theorem expressionChain_appended {fork : Scanner} {tail : List Char} {n' : Nat}
    {r : Expr × List (Operator × Expr)} (P : Parting fork (gap ++ tail)) (hn : n ≤ n')
    (hahead : fork.cursor.ahead = gap ++ ['\n', ';'])
    (hrun : expressionChain params n j (TokenStream.start (text ++ ['\n', ';'])) = .ok (r, s₁))
    (hpass : (Scanner.start (text ++ ['\n', ';'])).Passes ((expressionChainTrace params n j).events
      (TokenStream.start (text ++ ['\n', ';']))) fork) :
    ∃ s₂, expressionChain params n' j (TokenStream.start (text ++ tail)) = .ok (r, s₂) ∧
      Before true (gap ++ tail) s₂ := by
  have halike : (Likeness.parting fork (gap ++ tail)).AlikeFrom _ (Likeness.Joint Eq _)
      (expressionChainTrace params n j) (expressionChain params n' j) :=
    expressionChain_alike (Likeness.parting_lawful P) trivial hn j
  have hstart : (Likeness.parting fork (gap ++ tail)).near (Scanner.start (text ++ ['\n', ';']))
      (Scanner.start (text ++ tail)) := by
    intro hreach
    obtain ⟨rest, ha, -⟩ := hreach.exists_rest
    have htext : text = rest ++ gap := by
      rw [hahead, ← List.append_assoc] at ha
      exact List.append_cancel_right ha
    exact ⟨rfl, rest, ha, by rw [← List.append_assoc, ← htext]; rfl⟩
  obtain ⟨_, s₂, d, hrun', hq, hgo⟩ := halike.arrives hstart (.clear none) (.clear none) hrun hpass
  obtain ⟨rfl, hnear⟩ := hq
  have hbeside : Beside fork (gap ++ tail) fork d := hnear (.refl fork)
  exact ⟨s₂, hrun', d, hgo, hbeside.afterOperand_eq.trans P.behind.afterOperand,
    Parting.ahead_of_eq hbeside⟩

/-- **An expression that reaches the end of its text is read in the same way when more text follows**, up
to its last operand. Behind this there are blanks, and then the text that follows. -/
theorem ReadsToEnd.appended (h : ReadsToEnd params text e) : ∃ first ops gap, e = .ofChain first ops ∧
    Lexeme.blankWidth false gap = gap.length ∧
    (Lexeme.opensComment false gap → EndsInComment params text) ∧
    ∀ tail, Lexeme.FollowsOperand tail → ∃ steps rounds s₁, tail.length < rounds ∧
      Before true (gap ++ tail) s₁ ∧
      expression params (stepsFor (text ++ tail)) (TokenStream.start (text ++ tail)) =
        (loop (operation params steps (expression params steps)) rounds ops >>= fun ops =>
          pure (.ofChain first ops)) s₁ := by
  obtain ⟨s, hrun, hend⟩ := h
  obtain ⟨j, hj, first, ops, s₁, hchain, ops', hlast, rfl⟩ := exists_chainOf_of_expression hrun
  obtain ⟨c, hc, hgo⟩ := (expressionChainTrace params text.length j).passes
    (GoesOn.clear (c := Scanner.start text) none)
  have hs := hgo _ _ hchain
  have hsource : c.source = text := hc.source_eq
  obtain ⟨rfl, hgap⟩ := operation_ends_chain hs hsource hlast hend
  refine ⟨first, ops', c.cursor.ahead, rfl, hgap, endsInComment_of_gap hj hchain hs hsource hgap,
    fun tail htail => ?_⟩
  obtain ⟨fork, s₁', hchain', hpass, hbehind, hahead⟩ := exists_fork hchain hs hgap
  obtain ⟨m, hm, hsteps⟩ : ∃ m, tail.length < m ∧ j + m = (text ++ tail).length := by
    rw [List.length_append]
    exact ⟨text.length + tail.length - j, by omega, by omega⟩
  have hle : text.length ≤ j + m := by
    rw [hsteps, List.length_append]
    exact Nat.le_add_right _ _
  obtain ⟨s₂, hrun', hbefore⟩ := expressionChain_appended (parting_append hbehind hahead hgap htail) hle
    hahead hchain' hpass
  refine ⟨j + m, m, s₂, hm, hbefore, ?_⟩
  rw [stepsFor, ← hsteps]
  exact expression_of_chainOf m hrun'

end Grammar

end InfluxQL

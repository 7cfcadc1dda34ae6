import InfluxQL.Token.Quoted
import InfluxQL.Token.RegexBody

/-!
# Reading by characters

What follows an opening quote or slash is read by a loop that counts bytes. The same is said here by
recursion on the text, with the number of characters taken: the bytes counted are those of the
characters.

* `Quoted.read`, `Quoted.decode_eq`: what follows an opening quote;
* `RegexBody.read`, `RegexBody.decode_eq`: what follows an opening slash;
* `Quoted.induction`, `RegexBody.induction`: induction over a text in the pieces that it is read in.
-/

namespace InfluxQL

namespace Quoted

/-- The body with one more character before what it holds. -/
def Body.push (c : Char) : Body → Body
  | .closed value => .closed (c :: value)
  | .badEscape text => .badEscape text
  | .unterminated value => .unterminated (c :: value)

/-- Reads what follows an opening `quote`. The number counts the characters taken, the closing
quote included; a newline is not taken, and a backslash at the very end is. -/
def read (quote : Char) : List Char → Body × Nat
  | [] => (.unterminated [], 0)
  | c :: rest =>
    if c = quote then (.closed [], 1)
    else if c = '\n' then (.unterminated [], 0)
    else if c = '\\' then
      match rest with
      | [] => (.unterminated [], 1)
      | e :: rest' =>
        match escaped? e with
        | none => (.badEscape ['\\', e], 2)
        | some value =>
          let (body, width) := read quote rest'
          (body.push value, width + 2)
    else
      let (body, width) := read quote rest
      (body.push c, width + 1)

section Read

variable {quote c e : Char}

theorem Body.push_eq_closed_iff {body : Body} {value : List Char} :
    body.push c = .closed value ↔ ∃ v, body = .closed v ∧ value = c :: v := by
  cases body <;> simp [push, eq_comm]

theorem read_quote (quote : Char) (rest : List Char) :
    read quote (quote :: rest) = (.closed [], 1) := by
  rw [read.eq_def]
  simp

theorem read_newline (hq : '\n' ≠ quote) (rest : List Char) :
    read quote ('\n' :: rest) = (.unterminated [], 0) := by
  rw [read.eq_def]
  simp [hq]

theorem read_backslash (hq : '\\' ≠ quote) : read quote ['\\'] = (.unterminated [], 1) := by
  simp [read, hq]

theorem read_badEscape (hq : '\\' ≠ quote) (he : escaped? e = none) (rest : List Char) :
    read quote ('\\' :: e :: rest) = (.badEscape ['\\', e], 2) := by
  simp [read, hq, he]

theorem read_pair (hq : '\\' ≠ quote) (he : escaped? e = some c) (rest : List Char) :
    read quote ('\\' :: e :: rest) = ((read quote rest).1.push c, (read quote rest).2 + 2) := by
  simp [read, hq, he]

theorem read_cons (hq : c ≠ quote) (hn : c ≠ '\n') (hb : c ≠ '\\') (rest : List Char) :
    read quote (c :: rest) = ((read quote rest).1.push c, (read quote rest).2 + 1) := by
  rw [read.eq_def]
  simp only [if_neg hq, if_neg hn, if_neg hb]

/-- Induction over a text in the pieces that it is read in behind an opening quote. -/
@[elab_as_elim]
theorem induction (quote : Char) {motive : List Char → Prop} (finished : motive [])
    (closing : ∀ rest, motive (quote :: rest))
    (newline : ∀ rest, '\n' ≠ quote → motive ('\n' :: rest))
    (backslash : '\\' ≠ quote → motive ['\\'])
    (badEscape : ∀ e rest, '\\' ≠ quote → escaped? e = none → motive ('\\' :: e :: rest))
    (pair : ∀ e c rest, '\\' ≠ quote → escaped? e = some c → motive rest →
      motive ('\\' :: e :: rest))
    (plain : ∀ c rest, c ≠ quote → c ≠ '\n' → c ≠ '\\' → motive rest → motive (c :: rest))
    (text : List Char) : motive text := by
  fun_induction read quote text with
  | case1 => exact finished
  | case2 rest => exact closing rest
  | case3 rest hq => exact newline rest hq
  | case4 hq => exact backslash hq
  | case5 e rest he hq => exact badEscape e rest hq he
  | case6 e rest c he _ _ _ hq _ ih => exact pair e c rest hq he ih
  | case7 c rest hq hn hb _ _ _ ih => exact plain c rest hq hn hb ih

/-- The body with more characters before what it holds. -/
def Body.pushAll (value : List Char) : Body → Body
  | .closed v => .closed (value ++ v)
  | .badEscape text => .badEscape text
  | .unterminated v => .unterminated (value ++ v)

theorem Body.pushAll_nil (body : Body) : body.pushAll [] = body := by
  cases body <;> rfl

theorem Body.pushAll_append_singleton (value : List Char) (body : Body) :
    body.pushAll (value ++ [c]) = (body.push c).pushAll value := by
  cases body <;> simp [pushAll, push]

/-- The loop takes the bytes of the characters that are read. -/
theorem decodeFrom_eq (hone : quote.utf8Size = 1) {start size : Nat} {text : List Char}
    (hsize : size = start + byteSize text) (value : List Char) :
    decodeFrom quote size value (charIndices start text) =
      (start + byteSize (text.take (read quote text).2), (read quote text).1.pushAll value) := by
  induction text using Quoted.induction quote generalizing value start with
  | finished => simp [decodeFrom, charIndices, read, Body.pushAll, hsize]
  | closing rest =>
    rw [charIndices, decodeFrom.eq_def]
    simp [read_quote, Body.pushAll, hone]
  | newline rest hq =>
    rw [charIndices, decodeFrom.eq_def]
    simp [read_newline hq, Body.pushAll, hq]
  | backslash hq =>
    rw [charIndices, decodeFrom.eq_def]
    simp [charIndices, read_backslash hq, Body.pushAll, hq, hsize]
  | badEscape e rest hq he =>
    rw [charIndices, charIndices, decodeFrom.eq_def]
    simp [read_badEscape hq he, Body.pushAll, hq, he, Nat.add_assoc]
  | pair e c rest hq he ih =>
    rw [byteSize_cons, byteSize_cons, ← Nat.add_assoc, ← Nat.add_assoc] at hsize
    rw [charIndices, charIndices, decodeFrom.eq_def]
    simp only [if_neg hq, he, ih hsize, read_pair hq he, Body.pushAll_append_singleton,
      List.take_succ_cons, byteSize_cons]
    simp [Nat.add_assoc]
  | plain c rest hq hn hb ih =>
    rw [byteSize_cons, ← Nat.add_assoc] at hsize
    rw [charIndices, decodeFrom.eq_def]
    simp only [if_neg hq, if_neg hn, if_neg hb, ih hsize, read_cons hq hn hb,
      Body.pushAll_append_singleton, List.take_succ_cons, byteSize_cons, Nat.add_assoc]

/-- What follows an opening quote takes the bytes of the characters that are read. -/
theorem decode_eq (hone : quote.utf8Size = 1) (rest : List Char) :
    decode quote rest = (byteSize (rest.take (read quote rest).2), (read quote rest).1) := by
  rw [decode, decodeFrom_eq hone (Nat.zero_add _).symm, Nat.zero_add, Body.pushAll_nil]

end Read

end Quoted

namespace RegexBody

/-- The body with more characters before its pattern. -/
def push (cs : List Char) : RegexBody → RegexBody
  | closed pattern => closed (cs ++ pattern)
  | unterminated pattern => unterminated (cs ++ pattern)
  | loneBackslash => loneBackslash

/-- Reads what follows an opening slash. The number counts the characters taken, the closing slash
included. -/
def read : List Char → RegexBody × Nat
  | [] => (unterminated [], 0)
  | '/' :: _ => (closed [], 1)
  | ['\\'] => (loneBackslash, 1)
  | '\\' :: c :: rest =>
    let (body, width) := read rest
    (body.push (if c = '/' then ['/'] else ['\\', c]), width + 2)
  | c :: rest =>
    let (body, width) := read rest
    (body.push [c], width + 1)

theorem read_pair (c : Char) (rest : List Char) :
    read ('\\' :: c :: rest) =
      ((read rest).1.push (if c = '/' then ['/'] else ['\\', c]), (read rest).2 + 2) := rfl

theorem read_cons {c : Char} (hs : c ≠ '/') (hb : c ≠ '\\') (rest : List Char) :
    read (c :: rest) = ((read rest).1.push [c], (read rest).2 + 1) := by
  rw [read] <;> simp [hs, hb]

@[simp] theorem push_nil (body : RegexBody) : body.push [] = body := by
  cases body <;> rfl

@[simp] theorem push_push (body : RegexBody) (cs ds : List Char) :
    (body.push cs).push ds = body.push (ds ++ cs) := by
  cases body <;> simp [push]

theorem push_eq_closed_iff {body : RegexBody} {cs pattern : List Char} :
    body.push cs = closed pattern ↔ ∃ p, body = closed p ∧ pattern = cs ++ p := by
  cases body <;> simp [push, eq_comm]

/-- Induction over a text in the pieces that it is read in: it ends, at once or behind a backslash, or
is closed, or goes on behind a backslash and a character or behind any other character. -/
@[elab_as_elim]
theorem induction {motive : List Char → Prop} (finished : motive [])
    (slash : ∀ rest, motive ('/' :: rest)) (loneBackslash : motive ['\\'])
    (pair : ∀ c rest, motive rest → motive ('\\' :: c :: rest))
    (plain : ∀ c rest, c ≠ '/' → c ≠ '\\' → motive rest → motive (c :: rest))
    (text : List Char) : motive text := by
  fun_induction read text with
  | case1 => exact finished
  | case2 rest => exact slash rest
  | case3 => exact loneBackslash
  | case4 c rest _ _ _ ih => exact pair c rest ih
  | case5 c rest hs hlone hpair _ _ _ ih =>
    refine plain c rest hs (fun hb => ?_) ih
    cases rest with
    | nil => exact hlone hb rfl
    | cons d rest => exact hpair d rest hb rfl

/-- The loop takes the bytes of the characters that are read. -/
theorem decodeFrom_eq {start size : Nat} {text : List Char} (hsize : size = start + byteSize text)
    (pattern : List Char) :
    decodeFrom size pattern (charIndices start text) =
      (start + byteSize (text.take (read text).2), (read text).1.push pattern) := by
  have hone : '/'.utf8Size = 1 := rfl
  induction text using RegexBody.induction generalizing pattern start with
  | finished => simp [decodeFrom, charIndices, read, push, hsize]
  | slash rest =>
    rw [charIndices, decodeFrom.eq_def]
    simp [read, push, hone]
  | loneBackslash => simp [decodeFrom, charIndices, read, push, hsize]
  | pair c rest ih =>
    rw [byteSize_cons, byteSize_cons, ← Nat.add_assoc, ← Nat.add_assoc] at hsize
    rw [charIndices, charIndices, decodeFrom.eq_def]
    simp only [ih hsize, read_pair, push_push, List.take_succ_cons, byteSize_cons]
    simp [Nat.add_assoc]
  | plain c rest hs hb ih =>
    rw [byteSize_cons, ← Nat.add_assoc] at hsize
    rw [charIndices, decodeFrom.eq_def]
    simp only [if_neg hs, if_neg hb, ih hsize, read_cons hs hb, push_push, List.take_succ_cons,
      byteSize_cons, Nat.add_assoc]

/-- What follows an opening slash takes the bytes of the characters that are read. -/
theorem decode_eq (rest : List Char) :
    decode rest = (byteSize (rest.take (read rest).2), (read rest).1) := by
  rw [decode, decodeFrom_eq (Nat.zero_add _).symm, Nat.zero_add, push_nil]

end RegexBody

end InfluxQL

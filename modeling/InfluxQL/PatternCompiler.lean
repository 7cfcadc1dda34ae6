/-!
# Compilers of regular expressions

A regular expression is only kept, never matched, but a pattern that does not compile is refused, and
what is wrong with it is told. Which patterns compile is up to the engine that they are meant for.

* `PatternCompiler`: such an engine, on which the language depends;
* `Compiles`: the patterns that are not refused.
-/

namespace InfluxQL

/-- An engine for regular expressions. -/
class PatternCompiler where
  /-- Compiles a pattern, or tells what is wrong with it. -/
  compile : String → Except String Unit

variable [PatternCompiler]

/-- The pattern is not refused. -/
def Compiles (pattern : String) : Prop :=
  PatternCompiler.compile pattern = .ok ()

instance (pattern : String) : Decidable (Compiles pattern) :=
  match h : PatternCompiler.compile pattern with
  | .ok () => isTrue h
  | .error text => isFalse fun h' => by cases h.symm.trans h'

/-- What does not compile has a fault that is told. -/
theorem compiles_or_error (pattern : String) :
    Compiles pattern ∨ ∃ text, PatternCompiler.compile pattern = .error text := by
  unfold Compiles
  rcases PatternCompiler.compile pattern with text | _
  · exact .inr ⟨text, rfl⟩
  · exact .inl rfl

end InfluxQL

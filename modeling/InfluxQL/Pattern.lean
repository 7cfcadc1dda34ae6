import InfluxQL.Pattern.Program
import InfluxQL.Pattern.Reader
import InfluxQL.PatternCompiler

/-!
# A compiler of regular expressions

The compiler that is used where no other one is given. It compiles no more than it has to:
`Pattern.accepts` asks for a text that can be read (`Pattern.ofText?`) as a pattern that is neither
nested too deeply nor too large when it is compiled. What is wrong with another text is not told.
-/

namespace InfluxQL.Pattern

/-- How deeply a pattern may be nested. -/
def maxDepth : Nat := 250

/-- How large a compiled pattern may be, in bytes: ten mebibytes. -/
def maxSize : Nat := 10 * 1024 * 1024

/-- Is the pattern nested no deeper and compiled no larger than it may be? -/
def withinLimits (p : Pattern) : Bool :=
  p.depth ≤ maxDepth && p.program.size ≤ maxSize

/-- Is the pattern well-formed and within the limits? -/
def accepts (pattern : String) : Bool :=
  (ofText? pattern.toList).any withinLimits

instance (priority := low) compiler : PatternCompiler where
  compile pattern := if accepts pattern then .ok () else .error "regex parse error"

end InfluxQL.Pattern

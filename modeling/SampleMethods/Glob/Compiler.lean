import SampleMethods.Config
import SampleMethods.Glob.Nesting

/-!
# The compiler of patterns

Patterns are put together to a regular expression, which is refused when one of
them is nested too deeply.
-/

set_option autoImplicit false

namespace SampleMethods.Glob

/-- The compiler that refuses patterns for being nested too deeply. How large a regular expression
may become is left out. -/
instance nestingCompiler : Compiler where
  refusal? globs := (tooDeep? globs).map fun place => "error parsing pattern " ++ toString place
  accepts_default globs areDefault := by
    have shallow : (Config.patterns "exclude" Config.defaultExclude).toOption.map tooDeep? =
        some none := by decide +kernel
    rw [areDefault] at shallow
    rw [Option.some.inj shallow]
    rfl

end SampleMethods.Glob

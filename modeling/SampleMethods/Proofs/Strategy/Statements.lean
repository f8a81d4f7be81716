import SampleMethods.Strategy

/-!
# The statements that a strategy looks at

Each layout looks for methods in one list of statements: that of the module, or
that of the body of its first function. A strategy takes the first of its layouts
that finds any there, so the methods of a module are those of an extraction from
one list of statements, or there are none (`extract_eq`).
-/

set_option autoImplicit false

namespace SampleMethods

/-- The statements of a module that the layout looks at. -/
def Layout.statements (layout : Layout) (script : Script.Module) : List Script.Node :=
  match layout with
  | direct => script.statements
  | wrapped => ((Wrapper.first? script).map (·.body)).getD []

theorem Layout.extract_eq (layout : Layout) (text : List Char) (sourcePath : String)
    (script : Script.Module) :
    layout.extract text sourcePath script =
      Invocation.extract text sourcePath (layout.statements script) := by
  cases layout with
  | direct => rfl
  | wrapped =>
      simp only [extract, statements, Wrapper.extract, Wrapper.delegate, Wrapper.delegateM]
      cases Wrapper.first? script with
      | none => rfl
      | some wrapper => rfl

namespace Strategy

/-- The first of the layouts of a strategy that finds methods in a module. -/
def layoutFor? (strategy : Strategy) (text : List Char) (sourcePath : String)
    (script : Script.Module) : Option Layout :=
  strategy.layouts.find? fun layout => !(layout.extract text sourcePath script).isEmpty

theorem extractFirst_eq (text : List Char) (sourcePath : String) (script : Script.Module)
    (layouts : List Layout) :
    extractFirst text sourcePath script layouts =
      match layouts.find? fun layout => !(layout.extract text sourcePath script).isEmpty with
      | some layout => layout.extract text sourcePath script
      | none => [] := by
  induction layouts with
  | nil => rfl
  | cons layout layouts ih =>
      rw [extractFirst, List.find?_cons]
      cases found : layout.extract text sourcePath script with
      | nil => simpa using ih
      | cons method methods => simp [found]

theorem extract_eq (strategy : Strategy) (text : List Char) (sourcePath : String)
    (script : Script.Module) :
    strategy.extract text sourcePath script =
      match strategy.layoutFor? text sourcePath script with
      | some layout => Invocation.extract text sourcePath (layout.statements script)
      | none => [] := by
  rw [extract, extractFirst_eq, layoutFor?]
  split
  · exact Layout.extract_eq _ text sourcePath script
  · rfl

/-- What every extraction from a list of statements has, the methods of a module have. -/
theorem extract_induction {motive : List Method → Prop} (strategy : Strategy)
    (text : List Char) (sourcePath : String) (script : Script.Module) (none : motive [])
    (some : ∀ statements, motive (Invocation.extract text sourcePath statements)) :
    motive (strategy.extract text sourcePath script) := by
  rw [extract_eq]
  split
  · exact some _
  · exact none

end Strategy

end SampleMethods

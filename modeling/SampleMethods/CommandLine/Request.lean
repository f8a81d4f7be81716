import SampleMethods.CommandLine.Option
import SampleMethods.Path
import SampleMethods.Report
import SampleMethods.Strategy

/-!
# Requests on the command line

What the program can be asked to do, and the arguments that ask for it.
-/

set_option autoImplicit false

namespace SampleMethods.CommandLine

/-- What an analysis is asked for. -/
structure AnalysisRequest where
  path : Path
  form : Report.Form
  strategy : Option Strategy
  /-- Whether the tags of regions are left out. -/
  withoutTags : Bool
  config : Option Path
  output : Option Path

/-- What a validation of data files is asked for. -/
structure ValidationRequest where
  path : Path
  strategy : Option Strategy
  config : Option Path
  output : Option Path

/-- What the program is asked to do. -/
inductive Task where
  | analyze (request : AnalysisRequest)
  | validateData (request : ValidationRequest)
  /-- Tell whether a configuration is valid. -/
  | checkConfig (path : Option Path)
  /-- Tell what a configuration comes down to. -/
  | showConfig (path : Option Path)

/-- What the program is asked to do, and how much it is to say about it. -/
structure Request where
  verbosity : Nat
  task : Task

/-! ## Values -/

/-- The path that a text writes, which may not be empty. -/
def pathOf (text : String) : Except Stop Path :=
  if text.isEmpty then .error .misuse else .ok (.ofString text)

/-- The value that an option gives, if it is given. -/
def optional {α : Type} (given : Given) (name : String) (read : String → Except Stop α) :
    Except Stop (Option α) :=
  match given.values.lookup name with
  | some text => (read text).map some
  | none => .ok none

/-- The value that a text names. -/
def named {α : Type} (ofName? : String → Option α) (text : String) : Except Stop α :=
  match ofName? text with
  | some value => .ok value
  | none => .error .misuse

/-- The only argument that is no option, which is a path. -/
def onlyPath (given : Given) : Except Stop Path :=
  match given.others with
  | [text] => pathOf text
  | _ => .error .misuse

/-! ## Requests -/

/-- The request for an analysis that arguments make. -/
def analysisRequest (arguments : List String) : Except Stop Request := do
  let options : Options := ⟨["no-region-tags"], ["format", "strategy", "config", "output"], false⟩
  let given ← readAll options none arguments
  let request : AnalysisRequest :=
    { path := ← onlyPath given,
      form := (← optional given "format" (named Report.Form.ofName?)).getD .table,
      strategy := ← optional given "strategy" (named Strategy.ofName?),
      withoutTags := given.switches.contains "no-region-tags",
      config := ← optional given "config" pathOf,
      output := ← optional given "output" pathOf }
  return ⟨given.verbosity, .analyze request⟩

/-- The request for a validation of data files that arguments make. -/
def validationRequest (arguments : List String) : Except Stop Request := do
  let given ← readAll ⟨[], ["strategy", "config", "output"], false⟩ none arguments
  let request : ValidationRequest :=
    { path := ← onlyPath given,
      strategy := ← optional given "strategy" (named Strategy.ofName?),
      config := ← optional given "config" pathOf,
      output := ← optional given "output" pathOf }
  return ⟨given.verbosity, .validateData request⟩

/-- The request about a configuration that arguments make. -/
def configRequest (arguments : List String) : Except Stop Request := do
  let (outer, word, rest) ← readWord ⟨[], [], false⟩ arguments
  let request (task : Option Path → Task) : Except Stop Request := do
    let given ← readAll ⟨[], ["path"], false⟩ none rest
    unless given.others.isEmpty do
      throw .misuse
    return ⟨outer + given.verbosity, task (← optional given "path" pathOf)⟩
  match word with
  | "validate" => request .checkConfig
  | "show" => request .showConfig
  | "help" => throw .help
  | _ => throw .misuse

/-- The request that arguments make. -/
def requestOf (arguments : List String) : Except Stop Request := do
  let (outer, word, rest) ← readWord ⟨[], [], true⟩ arguments
  let request ←
    match word with
    | "analyze" => analysisRequest rest
    | "validate-yaml" => validationRequest rest
    | "config" => configRequest rest
    | "help" => throw .help
    | _ => throw .misuse
  return { request with verbosity := outer + request.verbosity }

end SampleMethods.CommandLine

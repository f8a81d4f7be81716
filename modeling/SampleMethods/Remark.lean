/-!
# Remarks

What the library has to say besides its results. A remark has a level, a topic
and a text. Remarks that matter too little for a reader are left out.
-/

set_option autoImplicit false

namespace SampleMethods

/-- How much a remark matters. -/
inductive Remark.Level where
  | debug
  | info
  | warning
deriving DecidableEq, Repr

/-- What a remark is about. -/
inductive Remark.Topic where
  /-- The analysis of many files. -/
  | project
  /-- The analysis of one file. -/
  | analysis
  | regions
  | strategy
  | wrapper
  | dataFiles
  | commandLine
deriving DecidableEq, Repr

/-- Something that is worth telling. -/
structure Remark where
  level : Remark.Level
  topic : Remark.Topic
  text : String
deriving DecidableEq, Repr

namespace Remark

/-- A remark on what was found. -/
def debug (topic : Topic) (text : String) : Remark :=
  ⟨.debug, topic, text⟩

/-- A remark on what is done. -/
def info (topic : Topic) (text : String) : Remark :=
  ⟨.info, topic, text⟩

/-- A remark on what is left out. -/
def warning (topic : Topic) (text : String) : Remark :=
  ⟨.warning, topic, text⟩

namespace Level

/-- The name of a level. -/
def name : Level → String
  | debug => "DEBUG"
  | info => "INFO"
  | warning => "WARN"

/-- The place of a level among the others. -/
def rank : Level → Nat
  | debug => 0
  | info => 1
  | warning => 2

end Level

/-- The name of a topic. -/
def Topic.name : Topic → String
  | project => "wizard_core"
  | analysis => "wizard_core::analysis"
  | regions => "wizard_core::region_tags"
  | strategy => "wizard_core::strategy"
  | wrapper => "wizard_core::wrapped_invocation"
  | dataFiles => "wizard_core::drift_data"
  | commandLine => "wizard"

/-- The remark as a line. -/
def render (remark : Remark) : String :=
  remark.level.name ++ " " ++ remark.text

/-- The remark for the log of a program: the level in five columns, the topic, and the text,
whose further lines are indented. -/
def logLine (remark : Remark) : String :=
  let level := remark.level.name.toList
  let text := remark.text.toList.flatMap fun character =>
    if character == '\n' then '\n' :: List.replicate 4 ' ' else [character]
  "[" ++ String.ofList (level ++ List.replicate (5 - level.length) ' ') ++ " " ++
    remark.topic.name ++ "] " ++ String.ofList text ++ "\n"

/-- The log of a program that shows the remarks of some level and above. -/
def log (level : Level) (remarks : List Remark) : String :=
  String.join ((remarks.filter fun remark => level.rank ≤ remark.level.rank).map logLine)

end Remark

end SampleMethods

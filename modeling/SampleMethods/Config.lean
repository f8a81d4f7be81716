import SampleMethods.Failure
import SampleMethods.Glob.Matching
import SampleMethods.Glob.Parser
import SampleMethods.Path
import SampleMethods.Strategy

/-!
# Configuration

A configuration names the files that are analysed, by patterns, and how they
are analysed. All of it is optional. `Settings` is what a configuration comes
down to: its patterns are read, and what it leaves open has been decided.
-/

set_option autoImplicit false

namespace SampleMethods

/-! ## What a configuration says -/

/-- A configuration as it is written. -/
structure Config where
  included : List String
  excluded : List String
  strategy : Option Strategy
  regionTags : Option Bool
deriving DecidableEq, Repr, Inhabited

namespace Config

/-- The configuration that says nothing. -/
def empty : Config :=
  ⟨[], [], none, none⟩

/-- The shape of configurations in documents. -/
def shape : Json.Decoder.Shape Config where
  wanted := "struct WizardConfig"
  blank := empty
  fields :=
    [Json.Decoder.field "include" false (.list .string) fun patterns config =>
      { config with included := patterns },
     Json.Decoder.field "exclude" false (.list .string) fun patterns config =>
      { config with excluded := patterns },
     Json.Decoder.field "strategy" false (.optional Strategy.decoder) fun strategy config =>
      { config with strategy := strategy },
     Json.Decoder.field "region_tags" false (.optional .bool) fun tags config =>
      { config with regionTags := tags }]
  closed := true

/-- Configurations in documents. -/
def decoder : Json.Decoder Config :=
  .record shape

/-- The patterns that leave files out when a configuration has no such patterns: tests are no
samples, and neither is generated or foreign code. -/
def defaultExclude : List String :=
  ["**/test/**", "**/tests/**", "**/__tests__/**", "**/*.test.*", "**/*.spec.*",
   "**/node_modules/**", "**/dist/**", "**/build/**"]

end Config

/-! ## What a configuration comes down to -/

/-- Which files are analysed, and how. -/
structure Settings where
  /-- The patterns one of which a file has to match, or nothing if every file will do. -/
  included : Option (List Glob)
  excluded : List Glob
  strategy : Strategy
  regionTags : Bool
  /-- Where the configuration was found. -/
  configPath : Option Path
deriving Repr, Inhabited

namespace Config

/-- The patterns that texts write. `role` says in errors what they are for. -/
def patterns (role : String) (texts : List String) : Except Failure (List Glob) :=
  texts.mapM fun text =>
    Failure.during ("invalid " ++ role ++ " pattern: " ++ text)
      ((Glob.parse text).mapError fun error => .of (.glob error))

end Config

/-- What puts patterns together to a set that paths are matched against. It may refuse patterns
each of which can be read, because they are nested too deeply or come to too much together. -/
class Glob.Compiler where
  /-- Why patterns cannot be put together, as a sentence, if they cannot. -/
  refusal? : List Glob → Option String
  /-- The patterns that stand in for missing ones can be put together. -/
  accepts_default : ∀ globs, Config.patterns "exclude" Config.defaultExclude = .ok globs →
    refusal? globs = none

/-- The set of the patterns. -/
def Glob.compile [Glob.Compiler] (globs : List Glob) : Except Failure (List Glob) :=
  match Compiler.refusal? globs with
  | some reason => .error (.of (.globSet reason))
  | none => .ok globs

/-- The set of the patterns, if there are any. -/
def Glob.compile? [Glob.Compiler] (globs : List Glob) : Except Failure (Option (List Glob)) :=
  if globs.isEmpty then .ok none else (compile globs).map some

namespace Config

/-- Whether every pattern of the configuration can be read. -/
def validate (config : Config) : Except Failure Unit := do
  discard (patterns "include" config.included)
  discard (patterns "exclude" config.excluded)

/-- What the configuration comes down to. -/
def resolve [Glob.Compiler] (config : Config) : Except Failure Settings := do
  let included ← patterns "include" config.included
  let excluded ← patterns "exclude" config.excluded
  let defaults ← patterns "exclude" defaultExclude
  let includedSet ← Glob.compile? included
  let excludedSet ← Glob.compile (if excluded.isEmpty then defaults else excluded)
  return {
    included := includedSet,
    excluded := excludedSet,
    strategy := config.strategy.getD .auto,
    regionTags := config.regionTags.getD true,
    configPath := none }

end Config

namespace Settings

/-- Whether a file is analysed. Its path is matched as it is. -/
def includes (settings : Settings) (path : Path) : Bool :=
  let text := path.toString
  !settings.excluded.any (·.isMatch text) &&
    match settings.included with
    | some patterns => patterns.any (·.isMatch text)
    | none => true

/-- The directory that the configuration was found in, if its path names one. -/
def configDirectory? (settings : Settings) : Option Path := do
  let directory ← (← settings.configPath).parent?
  if directory.text.isEmpty then none else some directory

/-- The path of a file as the patterns see it: from the directory of the configuration on, or
else from the analysed directory on. -/
def relativePath (settings : Settings) (file root : Path) : Path :=
  let fromConfig := do file.stripPrefix? (← settings.configDirectory?)
  (fromConfig.or (file.stripPrefix? root)).getD file

end Settings

end SampleMethods

/-!
# Options on a command line

The arguments of a program are options with their values, and the rest. An
option may be given once, unless it is counted, and its value is the next
argument or stands behind an equals sign. Behind `--` there are no options.
-/

set_option autoImplicit false

namespace SampleMethods.CommandLine

/-- Why arguments are not a request. -/
inductive Stop where
  /-- The program is asked to describe itself. -/
  | help
  /-- The arguments are wrong. -/
  | misuse
deriving DecidableEq, Repr

/-- The options that arguments may give. -/
structure Options where
  /-- Options without a value. -/
  switches : List String
  /-- Options with a value. -/
  valued : List String
  /-- Whether the version may be asked for. -/
  version : Bool
deriving DecidableEq, Repr

/-- What arguments give. -/
structure Given where
  /-- How often remarks were asked for. -/
  verbosity : Nat
  switches : List String
  values : List (String × String)
  /-- The arguments that are no options. -/
  others : List String
deriving DecidableEq, Repr

namespace Given

/-- Nothing is given. -/
def nothing : Given :=
  ⟨0, [], [], []⟩

/-- The same with one more request for remarks. -/
def louder (given : Given) (count : Nat) : Given :=
  { given with verbosity := given.verbosity + count }

/-- The same with an option in front, which may be given once. -/
def withSwitch (given : Given) (name : String) : Except Stop Given :=
  if given.switches.contains name then .error .misuse
  else .ok { given with switches := name :: given.switches }

/-- The same with an option and its value in front, which may be given once. -/
def withValue (given : Given) (name value : String) : Except Stop Given :=
  if (given.values.lookup name).isSome then .error .misuse
  else .ok { given with values := (name, value) :: given.values }

/-- The same with an argument in front that is no option. -/
def withOther (given : Given) (argument : String) : Given :=
  { given with others := argument :: given.others }

end Given

/-- What an argument looks like. -/
inductive Argument where
  /-- From here on there are no options. -/
  | separator
  /-- An option with a long name, and the value behind its equals sign. -/
  | long (name : String) (value : Option String)
  /-- Options of one letter each. -/
  | letters (names : List Char)
  | other (text : String)
deriving DecidableEq, Repr

/-- What an argument looks like. A single dash is no option. -/
def Argument.ofString (text : String) : Argument :=
  match text.toList with
  | ['-', '-'] => separator
  | '-' :: '-' :: rest =>
    let name := rest.takeWhile (· != '=')
    let value := if rest.contains '=' then
        some (String.ofList (rest.drop (name.length + 1)))
      else none
    long (String.ofList name) value
  | '-' :: first :: rest => letters (first :: rest)
  | _ => other text

/-- The number of requests for remarks that letters make. -/
def countLetters (options : Options) : List Char → Except Stop Nat
  | [] => .ok 0
  | letter :: letters =>
    if letter == 'v' then (countLetters options letters).map (· + 1)
    else if letter == 'h' || (letter == 'V' && options.version) then .error .help
    else .error .misuse

/-- The options that ask the program to describe itself. -/
def helpNames (options : Options) : List String :=
  "help" :: if options.version then ["version"] else []

/-- What arguments give. `waiting` is an option whose value has to come first. -/
def readAll (options : Options) : Option String → List String → Except Stop Given
  | none, [] => .ok .nothing
  | some _, [] => .error .misuse
  | some name, argument :: rest =>
    match Argument.ofString argument with
    | .other value => do
      (← readAll options none rest).withValue name value
    | _ => .error .misuse
  | none, argument :: rest =>
    match Argument.ofString argument with
    | .separator => .ok { Given.nothing with others := rest }
    | .letters names => do
      let count ← countLetters options names
      return (← readAll options none rest).louder count
    | .other text => do
      return (← readAll options none rest).withOther text
    | .long name value =>
      if options.valued.contains name then
        match value with
        | some value => do
          (← readAll options none rest).withValue name value
        | none => readAll options (some name) rest
      else if value.isSome then .error .misuse
      else if name == "verbose" then do
        return (← readAll options none rest).louder 1
      else if options.switches.contains name then do
        (← readAll options none rest).withSwitch name
      else if (helpNames options).contains name then .error .help
      else .error .misuse

/-- What arguments give in front of a word, the word, and the arguments behind it. -/
def readWord (options : Options) : List String → Except Stop (Nat × String × List String)
  | [] => .error .misuse
  | argument :: rest =>
    match Argument.ofString argument with
    | .separator => .error .misuse
    | .letters names => do
      let count ← countLetters options names
      let (further, word, rest) ← readWord options rest
      return (count + further, word, rest)
    | .other word => .ok (0, word, rest)
    | .long name value =>
      if value.isSome then .error .misuse
      else if name == "verbose" then do
        let (further, word, rest) ← readWord options rest
        return (1 + further, word, rest)
      else if (helpNames options).contains name then .error .help
      else .error .misuse

end SampleMethods.CommandLine

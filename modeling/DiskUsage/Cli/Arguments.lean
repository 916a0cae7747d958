/-!
# Arguments

The arguments of a command are options and at most one path.  An option has a long name after two
dashes, and its value in the same argument after an equals sign or in the next one; some have a short
name of one letter after one dash, which the value may follow at once.  After two dashes alone
everything is a path.  A value in an argument of its own does not start with a dash.  An option may
be given once, and its value has to be one that it takes.

* `Arguments.read`: what the arguments say, or why they say nothing.
* `read_nil`: no arguments say nothing.
-/

namespace DiskUsage.Cli

/-- An option with a value. -/
structure OptionSpec where
  short : Char
  long : String
  /-- The option takes this value. -/
  takes : String → Bool

/-- What a command understands. -/
structure CommandSpec where
  /-- The long names of the options without a value. -/
  flags : List String
  options : List OptionSpec

/-- Why arguments are not carried out. -/
inductive Refusal where
  /-- They are wrong. -/
  | usage
  /-- They ask for help. -/
  | help
  /-- They ask for the version. -/
  | version
  deriving DecidableEq, Repr

/-- What arguments say. -/
structure Arguments where
  flags : List String
  /-- The values of options by long name. -/
  values : List (String × String)
  path? : Option String
  deriving DecidableEq, Repr

namespace Arguments

/-- Nothing is said. -/
def empty : Arguments := ⟨[], [], none⟩

/-- The flag is given. -/
def hasFlag (a : Arguments) (name : String) : Bool :=
  a.flags.contains name

/-- The value of an option. -/
def value? (a : Arguments) (name : String) : Option String :=
  (a.values.find? fun v => v.1 == name).map Prod.snd

/-- One more flag. -/
def addFlag (a : Arguments) (name : String) : Except Refusal Arguments :=
  if a.hasFlag name then .error .usage else .ok { a with flags := name :: a.flags }

/-- One more value. -/
def addValue (a : Arguments) (o : OptionSpec) (value : String) : Except Refusal Arguments :=
  if (a.value? o.long).isSome || !o.takes value then .error .usage
  else .ok { a with values := (o.long, value) :: a.values }

/-- The path, of which there may be one, and not an empty one. -/
def addPath (a : Arguments) (path : String) : Except Refusal Arguments :=
  if a.path?.isSome || path.isEmpty then .error .usage else .ok { a with path? := some path }

/-- What is said so far, and the option whose value comes next. -/
abbrev Pending := Arguments × Option OptionSpec

/-- Letters after one dash. -/
def readShort (spec : CommandSpec) (a : Arguments) : List Char → Except Refusal Pending
  | [] => .ok (a, none)
  | c :: rest =>
    if c = 'h' then .error .help
    else
      match spec.options.find? fun o => o.short == c with
      | none => .error .usage
      | some o =>
        match rest with
        | [] => .ok (a, some o)
        | '=' :: value => (a.addValue o (String.ofList value)).map (·, none)
        | value => (a.addValue o (String.ofList value)).map (·, none)

/-- What follows the first equals sign. -/
def valueAfterEquals? (cs : List Char) : Option String :=
  match cs.dropWhile (· != '=') with
  | [] => none
  | _ :: value => some (String.ofList value)

/-- A name after two dashes, with a value if there is an equals sign. -/
def readLong (spec : CommandSpec) (a : Arguments) (cs : List Char) : Except Refusal Pending :=
  let name := String.ofList (cs.takeWhile (· != '='))
  match valueAfterEquals? cs with
  | none =>
    if name = "help" then .error .help
    else if spec.flags.contains name then (a.addFlag name).map (·, none)
    else
      match spec.options.find? fun o => o.long == name with
      | some o => .ok (a, some o)
      | none => .error .usage
  | some value =>
    match spec.options.find? fun o => o.long == name with
    | some o => (a.addValue o value).map (·, none)
    | none => .error .usage

/-- One argument before the two dashes that stand alone. -/
def readOne (spec : CommandSpec) (a : Arguments) (arg : String) : Except Refusal Pending :=
  match arg.toList with
  | '-' :: '-' :: long => readLong spec a long
  | '-' :: c :: short => readShort spec a (c :: short)
  | _ => (a.addPath arg).map (·, none)

/-- The argument is an option, not a value. -/
def isOption (arg : String) : Bool :=
  match arg.toList with
  | '-' :: _ :: _ => true
  | _ => false

/-- Paths after the two dashes that stand alone. -/
def readPaths (a : Arguments) : List String → Except Refusal Arguments
  | [] => .ok a
  | arg :: rest =>
    match a.addPath arg with
    | .error e => .error e
    | .ok a => readPaths a rest

/-- What arguments say after what is said so far. -/
def readFrom (spec : CommandSpec) : Pending → List String → Except Refusal Arguments
  | (a, none), [] => .ok a
  | (_, some _), [] => .error .usage
  | (a, some o), arg :: rest =>
    if isOption arg then .error .usage
    else
      match a.addValue o arg with
      | .error e => .error e
      | .ok a => readFrom spec (a, none) rest
  | (a, none), arg :: rest =>
    if arg = "--" then readPaths a rest
    else
      match readOne spec a arg with
      | .error e => .error e
      | .ok pending => readFrom spec pending rest

/-- What arguments say. -/
def read (spec : CommandSpec) (args : List String) : Except Refusal Arguments :=
  readFrom spec (empty, none) args

@[simp] theorem read_nil (spec : CommandSpec) : read spec [] = .ok empty := rfl

end Arguments

end DiskUsage.Cli

import RoutingPolicy.Text.Basic

/-!
# Options of the command line

Arguments are read from left to right, and the first one that does not fit ends the reading. A long
option takes its value after an equals sign or from the next argument, a short one directly, after
an equals sign or from the next argument. Short switches may be grouped, and after `--` everything
is a file name.
-/

namespace RoutingPolicy

namespace CommandLine

/-- An option without a value. -/
inductive Switch where
  | ipv4Only
  | ipv6Only
  | defaults
  | routes
  | json
  | pretty
deriving DecidableEq

/-- An option with a value. -/
inductive Setting where
  | autnum
  | source
  | altSource
  | url
deriving DecidableEq

def Setting.isRepeatable : Setting → Bool
  | altSource => true
  | _ => false

/-- Why the arguments ask for no analysis. -/
inductive Stop where
  /-- The arguments do not fit. -/
  | misuse
  | version
  | help
deriving DecidableEq

inductive Meaning where
  | switch (switch : Switch)
  | setting (setting : Setting)
  | stop (stop : Stop)
deriving DecidableEq

/-- The names after two dashes. -/
def longNames : List (Text × Meaning) :=
  [("autnum".toList, .setting .autnum), ("source".toList, .setting .source),
   ("alt-source".toList, .setting .altSource), ("url".toList, .setting .url),
   ("ipv4-only".toList, .switch .ipv4Only), ("ipv6-only".toList, .switch .ipv6Only),
   ("defaults".toList, .switch .defaults), ("routes".toList, .switch .routes),
   ("json".toList, .switch .json), ("pretty".toList, .switch .pretty),
   ("version".toList, .stop .version), ("help".toList, .stop .help)]

/-- The letters after one dash. -/
def shortNames : List (Char × Meaning) :=
  [('a', .setting .autnum), ('s', .setting .source), ('4', .switch .ipv4Only),
   ('6', .switch .ipv6Only), ('r', .switch .routes), ('V', .stop .version), ('h', .stop .help)]

/-- What has been given so far. -/
structure Given where
  file : Option Text
  switches : List Switch
  settings : List (Setting × Text)
deriving DecidableEq

namespace Given

def nothing : Given := ⟨none, [], []⟩

def has (given : Given) (switch : Switch) : Bool := given.switches.contains switch

def values (given : Given) (setting : Setting) : List Text :=
  (given.settings.filter (·.1 == setting)).map Prod.snd

/-- The value given for an option that is given at most once. -/
def value? (given : Given) (setting : Setting) : Option Text := (given.values setting).head?

def addSwitch (given : Given) (switch : Switch) : Except Stop Given :=
  if given.has switch then .error .misuse
  else .ok { given with switches := given.switches ++ [switch] }

def addSetting (given : Given) (setting : Setting) (value : Text) : Except Stop Given :=
  if !setting.isRepeatable && (given.value? setting).isSome then .error .misuse
  else .ok { given with settings := given.settings ++ [(setting, value)] }

def addFile (given : Given) (name : Text) : Except Stop Given :=
  if given.file.isSome then .error .misuse else .ok { given with file := some name }

end Given

/-- How far the arguments have been read. -/
structure Progress where
  given : Given
  /-- The option whose value the next argument has to be. -/
  pending : Option Setting
  /-- Whether everything that follows is a file name. -/
  onlyFiles : Bool
deriving DecidableEq

namespace Progress

/-- Goes on with what has been given, with no value pending. -/
def settled (given : Given) : Progress := ⟨given, none, false⟩

/-- Reads the name and the value, if any, of a long option. -/
def long (given : Given) (body : Text) : Except Stop Progress :=
  let (name, value?) := match Text.splitAt? ['='] body with
    | some (name, value) => (name, some value)
    | none => (body, none)
  match longNames.lookup name, value? with
  | some (.setting setting), some value => (given.addSetting setting value).map settled
  | some (.setting setting), none => .ok ⟨given, some setting, false⟩
  | some (.switch switch), none => (given.addSwitch switch).map settled
  | some (.stop stop), none => .error stop
  | _, _ => .error .misuse

def short (given : Given) : Text → Except Stop Progress
  | [] => .ok (settled given)
  | letter :: rest =>
    match shortNames.lookup letter with
    | some (.switch switch) =>
      match given.addSwitch switch with
      | .error stop => .error stop
      | .ok given => short given rest
    | some (.setting setting) =>
      match rest with
      | [] => .ok ⟨given, some setting, false⟩
      | '=' :: value => (given.addSetting setting value).map settled
      | value => (given.addSetting setting value).map settled
    | some (.stop stop) => .error stop
    | none => .error .misuse

def step (progress : Progress) (argument : Text) : Except Stop Progress :=
  let plain :=
    match progress.pending with
    | some setting => (progress.given.addSetting setting argument).map settled
    | none =>
      (progress.given.addFile argument).map fun given => { progress with given }
  if progress.onlyFiles then plain
  else match argument with
    | '-' :: c :: rest =>
      if progress.pending.isSome then .error .misuse
      else if c = '-' then
        if rest = [] then .ok { progress with onlyFiles := true } else long progress.given rest
      else short progress.given (c :: rest)
    | _ => plain

end Progress

def readArguments (arguments : List Text) : Except Stop Given := do
  let progress ← arguments.foldlM Progress.step (.settled .nothing)
  if progress.pending.isSome then .error .misuse else .ok progress.given

end CommandLine

end RoutingPolicy

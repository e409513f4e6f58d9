import Retouch.Options.Layout
import Retouch.Text.Numeral
import Retouch.Verbosity

/-! Reading of a command line. Every argument is first told apart as an option or a word; then the
options act in order, and the first run of words gives the paths. -/
namespace Retouch.Options

inductive Stop where
  | help
  | version
  | misuse (message : String)
  | failure (f : Failure)

inductive Token where
  | option (o : OptionSpec) (name : String) (attached : Option String)
  | unknown (text : String)
  | word (text : String)
  | separator

def separatorText : String := "--"

def splitValue? (s : String) : Option (String × String) :=
  let cs := s.toList
  let key := cs.takeWhile (· != '=')
  match cs.drop key.length with
  | [] => none
  | _ :: value => some (String.ofList key, String.ofList value)

def isDigit (c : Char) : Bool := (digitValue? c).isSome

def isNegativeNumber (s : String) : Bool :=
  match s.toList with
  | '-' :: cs =>
    let body := if cs.getLast? == some '\n' then cs.dropLast else cs
    let whole := body.takeWhile isDigit
    match body.drop whole.length with
    | [] => !whole.isEmpty
    | '.' :: places => !places.isEmpty && places.all isDigit
    | _ => false
  | _ => false

/-- The options an argument can stand for: a long name may be cut short, a short name may have its
argument attached. -/
def candidates (g : Grammar) (arg : String) : List (OptionSpec × String × Option String) :=
  if arg.startsWith "--" then
    let (stem, value) := match splitValue? arg with
      | some (key, value) => (key, some value)
      | none => (arg, none)
    (g.names.filter (fun e => e.1.startsWith stem)).map (fun (name, o) => (o, name, value))
  else
    let cs := arg.toList
    let short := String.ofList (cs.take 2)
    (g.names.filter (fun e => e.1 == short)).map (fun (name, o) => (o, name, some (String.ofList (cs.drop 2))))

def exactValue? (g : Grammar) (arg : String) : Option Token := do
  let (key, value) ← splitValue? arg
  let o ← g.find? key
  return .option o key (some value)

def tokenOf (g : Grammar) (arg : String) : Except Stop Token :=
  if !arg.startsWith "-" then .ok (.word arg)
  else match g.find? arg with
    | some o => .ok (.option o arg none)
    | none =>
      if arg == "-" then .ok (.word arg)
      else match exactValue? g arg with
        | some token => .ok token
        | none =>
          match candidates g arg with
          | [(o, name, value)] => .ok (.option o name value)
          | [] => .ok (if isNegativeNumber arg || arg.contains ' ' then .word arg else .unknown arg)
          | several =>
            let names := ", ".intercalate (several.map (fun c => c.2.1))
            .error (.misuse s!"ambiguous option: {arg} could match {names}")

def tokens (g : Grammar) : List String → Except Stop (List Token)
  | [] => .ok []
  | arg :: rest =>
    if arg == separatorText then .ok (.separator :: rest.map .word)
    else do
      let token ← tokenOf g arg
      return token :: (← tokens g rest)

def misused (o : OptionSpec) (message : String) : Stop := .misuse s!"argument {o.label}: {message}"

def ignored (o : OptionSpec) (value : String) : Stop :=
  misused o s!"ignored explicit argument {Quoted.render value}"

structure Cluster where
  acts : List (OptionSpec × String)
  waiting : Option OptionSpec

def cluster (g : Grammar) (o : OptionSpec) : List Char → Except Stop Cluster
  | [] => .ok (if o.effect.takesArgument then ⟨[], some o⟩ else ⟨[(o, "")], none⟩)
  | c :: rest =>
    if o.effect.takesArgument then .ok ⟨[(o, String.ofList (c :: rest))], none⟩
    else match g.find? (String.ofList ['-', c]) with
      | some next => do
        let later ← cluster g next rest
        return { later with acts := (o, "") :: later.acts }
      | none => .error (ignored o (String.ofList (c :: rest)))

def clusterOf (g : Grammar) (o : OptionSpec) (name : String) : Option String → Except Stop Cluster
  | none => cluster g o []
  | some value =>
    if o.effect.takesArgument then .ok ⟨[(o, value)], none⟩
    else if name.startsWith "--" || value == "" then .error (ignored o value)
    else cluster g o value.toList

def integer (o : OptionSpec) (s : String) : Except Stop Value :=
  match parseInteger? s with
  | some n => .ok (.int n)
  | none => .error (misused o s!"invalid int value: {Quoted.render s}")

def act (settings : Settings) (o : OptionSpec) (argument : String) : Except Stop Settings :=
  let put (v : Value) : Settings := settings.put o.key v
  let current := (settings.lookup o.key).getD .none
  if o.effect.takesArgument && argument == separatorText then .error (.failure .noArgument)
  else match o.effect with
    | .help => .error .help
    | .version => .error .version
    | .assign v => .ok (put v)
    | .store => .ok (put (.text argument))
    | .storeInteger => (integer o argument).map put
    | .append => match current with
      | .none => .ok (put (.list [.text argument]))
      | .list items => .ok (put (.list (items ++ [.text argument])))
      | _ => .error (.failure .lacking)
    | .shift n => match Verbosity.shift n current with
      | .ok v => .ok (put v)
      | .error f => .error (.failure f)

inductive Words where
  | ahead
  | taking (words : List String)
  | taken (words : List String)

def Words.close : Words → Words
  | .taking words => .taken words.reverse
  | w => w

structure State where
  settings : Settings
  words : Words
  extra : List String
  seen : List String

def State.word (s : State) (text : String) : State :=
  match s.words with
  | .ahead => { s with words := .taking [text] }
  | .taking words => { s with words := .taking (text :: words) }
  | .taken _ => { s with extra := s.extra ++ [text] }

def State.separator (s : State) : State :=
  match s.words with
  | .ahead => { s with words := .taking [] }
  | .taking _ => s
  | .taken _ => { s with extra := s.extra ++ [separatorText] }

def State.acts (s : State) (acts : List (OptionSpec × String)) : Except Stop State :=
  acts.foldlM (fun s (o, argument) => do
    return { s with settings := ← act s.settings o argument, seen := o.key :: s.seen }) s

/-- Reads the tokens in order. An option that waits for its argument takes the next word, and acts after
the options it was given together with. -/
def readTokens (g : Grammar) : State → Option (List (OptionSpec × String) × OptionSpec) → List Token → Except Stop State
  | s, some (acts, o), .word text :: rest => do readTokens g (← s.acts (acts ++ [(o, text)])) none rest
  | _, some (_, o), _ => .error (misused o "expected one argument")
  | s, none, [] => .ok { s with words := s.words.close }
  | s, none, .word text :: rest => readTokens g (s.word text) none rest
  | s, none, .separator :: rest => readTokens g s.separator none rest
  | s, none, .unknown text :: rest =>
    readTokens g { s with words := s.words.close, extra := s.extra ++ [text] } none rest
  | s, none, .option o name attached :: rest => do
    let s := { s with words := s.words.close }
    let c ← clusterOf g o name attached
    match c.waiting with
    | none => readTokens g (← s.acts c.acts) none rest
    | some o => readTokens g s (some (c.acts, o)) rest

def State.sources (s : State) : List String :=
  match s.words with
  | .taken words => words
  | _ => []

/-- Preset integers are given as text too. -/
def convertPreset (g : Grammar) (s : State) (settings : Settings) (o : OptionSpec) : Except Stop Settings :=
  match o.effect, g.preset.lookup o.key with
  | .storeInteger, some (.text preset) =>
    if s.seen.contains o.key then .ok settings else (integer o preset).map (settings.put o.key)
  | _, _ => .ok settings

def evaluate (g : Grammar) (args : List String) : Except Stop Settings := do
  let s ← readTokens g ⟨g.start, .ahead, [], []⟩ none (← tokens g args)
  let words := s.sources
  let source := if words.isEmpty then
      match g.preset.lookup sourceKey with
      | some .none => .list []
      | some v => v
      | none => .list []
    else .list (words.map .text)
  let settings ← g.options.foldlM (convertPreset g s) (s.settings.put sourceKey source)
  if g.sourceRequired && words.isEmpty then
    throw (.misuse s!"the following arguments are required: {sourcePlaceholder}")
  if !s.extra.isEmpty then
    throw (.misuse ("unrecognized arguments: " ++ " ".intercalate s.extra))
  return settings

def read (g : Grammar) (args : List String) : Run Settings := do
  let columns := (← MonadReader.read).terminal.columns
  match evaluate g args with
  | .ok settings => return settings
  | .error .help =>
    Run.print (g.help columns)
    Run.fail (.exit 0)
  | .error .version =>
    Run.print (versionText ++ "\n")
    Run.fail (.exit 0)
  | .error (.misuse message) =>
    Run.complain (g.usage columns ++ s!"{programName}: error: {message}\n")
    Run.fail (.exit 2)
  | .error (.failure f) => Run.fail f

end Retouch.Options

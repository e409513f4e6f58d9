import Retouch.Data.Value

/-! The options of the command line. -/
namespace Retouch.Options

def programName : String := "darker"

def versionText : String := "1.2.3.dev0"

def installSorter : String := "Please run `pip install 'darker[isort]'`"

inductive Effect where
  | help
  | version
  | assign (v : Value)
  | store
  | storeInteger
  | append
  | shift (n : Int)

def Effect.takesArgument : Effect → Bool
  | store | storeInteger | append => true
  | _ => false

structure OptionSpec where
  names : List String
  key : String
  effect : Effect
  placeholder : String
  help : String
  initial : Option Value

def OptionSpec.label (o : OptionSpec) : String := "/".intercalate o.names

def sourceKey : String := "src"

def sourcePlaceholder : String := "PATH"

def sourceHelp : String := "Path(s) to the Python source file(s) to reformat"

def helpOption : OptionSpec :=
  ⟨["-h", "--help"], "help", .help, "", "show this help message and exit", none⟩

def sorterHelp (installed : Bool) : String :=
  "Also sort imports using the `isort` package" ++
    (if installed then "" else s!". {installSorter} to enable usage of this option.")

def table (sorterInstalled : Bool) : List OptionSpec :=
  [helpOption,
    ⟨["-r", "--revision"], "revision", .store, "REVISION",
      "Git revision against which to compare the working tree. Tags, branch names, commit hashes, and " ++
      "other expressions like HEAD~5 work here. Also a range like master...HEAD or master... can be " ++
      "used to compare the best common ancestor. With the magic value :PRE-COMMIT:, Darker expects the " ++
      "revision range from the PRE_COMMIT_FROM_REF and PRE_COMMIT_TO_REF environment variables.",
      some (.text "HEAD")⟩,
    ⟨["--diff"], "diff", .assign (.bool true), "",
      "Don't write the files back, just output a diff for each file on stdout. Highlight syntax on " ++
      "screen if the `pygments` package is available.", some (.bool false)⟩,
    ⟨["--check"], "check", .assign (.bool true), "",
      "Don't write the files back, just return the status.  Return code 0 means nothing would change.  " ++
      "Return code 1 means some files would be reformatted.", some (.bool false)⟩,
    ⟨["-i", "--isort"], "isort", .assign (.bool true), "", sorterHelp sorterInstalled, some (.bool false)⟩,
    ⟨["-L", "--lint"], "lint", .append, "CMD",
      "Also run a linter on changed files. CMD can be a name of path of the linter binary, or a full " ++
      "quoted command line", some (.list [])⟩,
    ⟨["-c", "--config"], "config", .store, "PATH",
      "Ask `black` and `isort` to read configuration from PATH.", some .none⟩,
    ⟨["-v", "--verbose"], "log_level", .shift (-10), "",
      "Show steps taken and summarize modifications", some (.int 30)⟩,
    ⟨["-q", "--quiet"], "log_level", .shift 10, "", "Reduce amount of output", some (.int 30)⟩,
    ⟨["--version"], "version", .version, "", "Show the version of `darker`", none⟩,
    ⟨["-S", "--skip-string-normalization"], "skip_string_normalization", .assign (.bool true), "",
      "Don't normalize string quotes or prefixes", some .none⟩,
    ⟨["--no-skip-string-normalization"], "skip_string_normalization", .assign (.bool false), "",
      "Normalize string quotes or prefixes. This can be used to override " ++
      "`skip_string_normalization = true` from a configuration file.", some .none⟩,
    ⟨["-l", "--line-length"], "line_length", .storeInteger, "LINE_LENGTH",
      "How many characters per line to allow [default: 88]", some .none⟩]

structure Grammar where
  sourceRequired : Bool
  sorterInstalled : Bool
  preset : Settings

def Grammar.options (g : Grammar) : List OptionSpec := table g.sorterInstalled

def Grammar.names (g : Grammar) : List (String × OptionSpec) :=
  g.options.flatMap (fun o => o.names.map (·, o))

def Grammar.find? (g : Grammar) (name : String) : Option OptionSpec := g.names.lookup name

def Grammar.initial? (g : Grammar) (o : OptionSpec) : Option Value := (g.preset.lookup o.key).orElse (fun _ => o.initial)

def Grammar.start (g : Grammar) : Settings :=
  let own (settings : Settings) (o : OptionSpec) : Settings :=
    match g.initial? o with
    | some v => if settings.has o.key then settings else settings ++ [(o.key, v)]
    | none => settings
  let source := (g.preset.lookup sourceKey).getD .none
  let head := own [] helpOption ++ [(sourceKey, source)]
  let all := (g.options.drop 1).foldl own head
  g.preset.foldl (fun s e => if s.has e.1 then s else s ++ [e]) all

def suppressed : String := "==SUPPRESS=="

def plainDefault (key : String) : Value :=
  match (table true).find? (·.key == key) with
  | some o => o.initial.getD (.text suppressed)
  | none => .none

end Retouch.Options

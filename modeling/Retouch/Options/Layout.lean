import Retouch.Options.Table
import Retouch.Text.Wrap

/-! Usage and help of the command line, laid out for a terminal. -/
namespace Retouch.Options

def description (sorterInstalled : Bool) : String :=
  "Re-format Python source files by using\n" ++
  "- `isort` to sort Python import definitions alphabetically within logical sections\n" ++
  "- `black` to re-format code changed since the last Git commit" ++
  (if sorterInstalled then "" else s!"\n\n{installSorter} to enable sorting of import definitions")

def textWidth (columns : Int) : Int := (if columns ≤ 0 then 80 else columns) - 2

def OptionSpec.usage (o : OptionSpec) : String :=
  let name := o.names.headD ""
  if o.effect.takesArgument then s!"[{name} {o.placeholder}]" else s!"[{name}]"

def sourceUsage (required : Bool) : List String :=
  let more := s!"[{sourcePlaceholder} ...]"
  if required then [sourcePlaceholder, more] else [more]

def packFrom (width : Int) (indent : Nat) : List String → Int → List String → List String
  | line, _, [] => if line.isEmpty then [] else [blanks indent ++ " ".intercalate line.reverse]
  | line, used, part :: rest =>
    if used + 1 + part.length > width && !line.isEmpty then
      (blanks indent ++ " ".intercalate line.reverse) ::
        packFrom width indent [part] ((indent : Int) - 1 + part.length + 1) rest
    else packFrom width indent (part :: line) (used + part.length + 1) rest

def pack (width : Int) (indent : Nat) (parts : List String) : List String :=
  packFrom width indent [] ((indent : Int) - 1) parts

def packAfter (width : Int) (indent before : Nat) (parts : List String) : List String :=
  match packFrom width indent [] ((before : Int) - 1) parts with
  | [] => []
  | line :: rest => String.ofList (line.toList.drop indent) :: rest

def usageLead : String := "usage: "

def Grammar.usage (g : Grammar) (columns : Int) : String :=
  let width := textWidth columns
  let options := g.options.map OptionSpec.usage
  let sources := sourceUsage g.sourceRequired
  let line := " ".intercalate (programName :: options ++ sources)
  if ((usageLead.length + line.length : Nat) : Int) ≤ width then usageLead ++ line ++ "\n"
  else
    let lead := usageLead.length + programName.length
    let lines :=
      if 4 * (lead : Int) ≤ 3 * width then
        packAfter width (lead + 1) usageLead.length (programName :: options) ++ pack width (lead + 1) sources
      else
        let together := pack width usageLead.length (options ++ sources)
        programName :: (if 1 < together.length then
          pack width usageLead.length options ++ pack width usageLead.length sources else together)
    usageLead ++ "\n".intercalate lines ++ "\n"

def OptionSpec.invocation (o : OptionSpec) : String :=
  ", ".intercalate (if o.effect.takesArgument then o.names.map (fun n => s!"{n} {o.placeholder}") else o.names)

def entry (width : Int) (typed help : String) : String :=
  let column := min 24 (max (width - 20) 4)
  let room := (column - 4).toNat
  let lines := Wrap.lines (Wrap.squeeze help) (max (width - column) 11) "" ""
  let at_column (line : String) : String := blanks column.toNat ++ line ++ "\n"
  if typed.length ≤ room then
    match lines with
    | [] => "  " ++ typed ++ "\n"
    | first :: rest =>
      "  " ++ padRight room typed ++ "  " ++ first ++ "\n" ++ String.join (rest.map at_column)
  else "  " ++ typed ++ "\n" ++ String.join (lines.map at_column)

def Grammar.help (g : Grammar) (columns : Int) : String :=
  let width := textWidth columns
  let about := Wrap.fillText (description g.sorterInstalled) (max width 11) ""
  let options := g.options.map (fun o => entry width o.invocation o.help)
  g.usage columns ++ "\n" ++ about ++ "\n\npositional arguments:\n" ++
    entry width sourcePlaceholder sourceHelp ++ "\noptions:\n" ++ String.join options

end Retouch.Options

import Retouch.Proofs.Requested

/-! Which settings a file is formatted with when no configuration file is requested: the options of the run come
first, then what is found around the file, then the formatter's own values. The configuration that is kept between two
calls has the options laid over it already. It serves the same file only, and laying the options over it again changes
nothing, so every file is formatted as if it were the only one. -/
namespace Retouch.Precedence
open Execution Inquiry Listing Overwriting Stillness Changes Course Parallel Calling Requested

/- A key that stands in the options twice counts as it stands there last. -/
def inForce (options own : Settings) (key : String) : Option Value := (options.reverse.lookup key).or (own.lookup key)

def modeFor (options own : Settings) : FormatMode where
  lineLength := (inForce options own "line_length").getD (.int 88)
  normalizeStrings := ((inForce options own "skip_string_normalization").map (fun skip => !skip.truthy)).getD true

def Follows (tools : Tools) (s : Session) (options : Settings) (file : Path) : Event → Prop
  | .format mode _ => ∃ own, (exec (ownSettings file .none) tools s).1 = .ok own ∧ mode = modeFor options own
  | .sortImports settings _ => settings = sorterSettings s .none ((options.lookup "line_length").getD .none) file
  | _ => False

section
variable (tools : Tools) (base : Session) (options : Settings)

end

section
variable {tools : Tools} {base : Session} {options : Settings}

section
variable (unrequested : options.lookup "config" = none)
include unrequested

end

end

def besideSession : Session :=
  { Rewriting.returnSession with
    tree := ⟨[(["r"],.directory),(["r","a"],.directory),(["r","a","x.py"],.file "".toUTF8 0),
      (["r","a","pyproject.toml"],.file "[tool.black]\nline_length = 50\n".toUTF8 0),(["r","b"],.directory),
      (["r","b","y.py"],.file "".toUTF8 0),
      (["r","b","pyproject.toml"],.file "[tool.black]\nline_length = 60\n".toUTF8 0)]⟩ }

end Retouch.Precedence

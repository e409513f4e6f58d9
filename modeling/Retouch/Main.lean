import Retouch.Recording

/-! The command line. The recording of a project is read from standard input, as one line of JSON; what
the program prints goes to standard output and standard error, and files that it would write follow
as one line of JSON. -/

open Retouch

def main (args : List String) : IO UInt32 := do
  let line ← (← IO.getStdin).getLine
  match Json.parse (if line.isEmpty then "\x7b\x7d" else line) with
  | .error complaint =>
    IO.eprintln complaint
    return 2
  | .ok recording =>
    let outcome := Recording.run recording args
    IO.print outcome.out
    IO.eprint outcome.err
    if !outcome.written.isEmpty then IO.println (Json.write (.table outcome.written))
    return UInt32.ofNat outcome.status.toNat

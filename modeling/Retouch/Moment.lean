/-! Calendar dates of times given in microseconds since 1970, in universal time. -/
namespace Retouch

structure Moment where
  year : Int
  month : Int
  day : Int
  hour : Int
  minute : Int
  second : Int
  microsecond : Int
  deriving Repr, DecidableEq

namespace Moment

/-- The date of a day counted from the first of January 1970, by eras of 400 years that begin in
March. -/
def dateOfDay (n : Int) : Int × Int × Int :=
  let z := n + 719468
  let era := z.fdiv 146097
  let dayOfEra := z - era * 146097
  let yearOfEra := (dayOfEra - dayOfEra / 1460 + dayOfEra / 36524 - dayOfEra / 146096) / 365
  let dayOfYear := dayOfEra - (365 * yearOfEra + yearOfEra / 4 - yearOfEra / 100)
  let shifted := (5 * dayOfYear + 2) / 153
  let day := dayOfYear - (153 * shifted + 2) / 5 + 1
  let month := if shifted < 10 then shifted + 3 else shifted - 9
  let year := yearOfEra + era * 400 + (if month ≤ 2 then 1 else 0)
  (year, month, day)

def ofMicroseconds (t : Int) : Moment :=
  let seconds := t.fdiv 1000000
  let micros := t - seconds * 1000000
  let days := seconds.fdiv 86400
  let rest := seconds - days * 86400
  let (year, month, day) := dateOfDay days
  ⟨year, month, day, rest / 3600, rest / 60 % 60, rest % 60, micros⟩

def pad (width : Nat) (n : Int) : String :=
  let s := toString n
  String.ofList (List.replicate (width - s.length) '0') ++ s

def seconds (m : Moment) (year : String) : String :=
  s!"{year}-{pad 2 m.month}-{pad 2 m.day} {pad 2 m.hour}:{pad 2 m.minute}:{pad 2 m.second}"

def full (m : Moment) : String := s!"{m.seconds (toString m.year)}.{pad 6 m.microsecond} +0000"

def short (m : Moment) : String :=
  let decimals := if m.microsecond == 0 then "" else s!".{pad 6 m.microsecond}"
  s!"{m.seconds (pad 4 m.year)}{decimals} +0000"

end Moment
end Retouch

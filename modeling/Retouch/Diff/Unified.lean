import Retouch.Diff.Match

/-! Unified diffs: the script is cut into groups of changes that are close to each other, every group
is shown with a few unchanged lines around it under a header with its line ranges. -/
namespace Retouch.Unified

def context : Int := 3

def trimFirst : List Edit → List Edit
  | [] => []
  | e :: rest =>
    if e.isEqual then
      { e with oldStart := max e.oldStart (e.oldStop - context),
               newStart := max e.newStart (e.newStop - context) } :: rest
    else e :: rest

def cutTail (e : Edit) : Edit :=
  { e with oldStop := min e.oldStop (e.oldStart + context),
           newStop := min e.newStop (e.newStart + context) }

def trimLast : List Edit → List Edit
  | [] => []
  | [e] => if e.isEqual then [cutTail e] else [e]
  | e :: rest => e :: trimLast rest

def split (group : List Edit) : List Edit → List (List Edit)
  | [] => [group.reverse]
  | e :: rest =>
    if e.isEqual && 2 * context < e.oldStop - e.oldStart then
      (cutTail e :: group).reverse ::
        split [{ e with oldStart := max e.oldStart (e.oldStop - context),
                        newStart := max e.newStart (e.newStop - context) }] rest
    else split (e :: group) rest

def dropIdle (groups : List (List Edit)) : List (List Edit) :=
  match groups.getLast? with
  | some [] => groups.dropLast
  | some [e] => if e.isEqual then groups.dropLast else groups
  | _ => groups

def groups (edits : List Edit) : List (List Edit) :=
  dropIdle (split [] (trimLast (trimFirst edits)))

/-- A range in a hunk header; an empty range names the line before it. -/
def range (start stop : Int) : String :=
  if stop - start == 1 then s!"{start + 1}"
  else if stop - start == 0 then s!"{start},0"
  else s!"{start + 1},{stop - start}"

def body (old new : List String) (e : Edit) : List String :=
  match e.kind with
  | .equal => (slice old e.oldStart e.oldStop).map (" " ++ ·)
  | .replace =>
    (slice old e.oldStart e.oldStop).map ("-" ++ ·) ++ (slice new e.newStart e.newStop).map ("+" ++ ·)
  | .delete => (slice old e.oldStart e.oldStop).map ("-" ++ ·)
  | .insert => (slice new e.newStart e.newStop).map ("+" ++ ·)
  | .other _ => []

def hunk (old new : List String) (group : List Edit) : List String :=
  match group.head?, group.getLast? with
  | some first, some last =>
    s!"@@ -{range first.oldStart last.oldStop} +{range first.newStart last.newStop} @@" ::
      group.flatMap (body old new)
  | _, _ => []

def lines (name : String) (old new : List String) : List String :=
  match groups (Matcher.skippingPopular old new).edits with
  | [] => []
  | gs => s!"--- {name}" :: s!"+++ {name}" :: gs.flatMap (hunk old new)

def render (name : String) (old new : List String) : String :=
  "\n".intercalate ((lines name old new).map (fun line =>
    String.ofList ((line.toList.reverse.dropWhile (· == '\n')).reverse)))

end Retouch.Unified

import Retouch.Workload.Edits
import Retouch.Workload.Projects
import Retouch.Workload.Texts

/-! The workloads by name. -/
namespace Retouch.Workload

def all : List Spec :=
  [⟨"bench_joinlines_textdoc", "n_lines", 400, documents⟩, ⟨"bench_buf_iteration", "n_lines", 400, cursor⟩,
    ⟨"bench_debug_dump", "n_chunks", 120, dump⟩, ⟨"bench_choose_lines", "n_chunks", 60, choice⟩,
    ⟨"bench_diff_opcodes", "n_opcodes", 400, script⟩, ⟨"bench_revision_range", "n_specs", 500, revisions⟩,
    ⟨"bench_git_repo_workflow", "n_chunks", 40, repository⟩, ⟨"bench_linter_parse", "n_msgs", 250, linter⟩,
    ⟨"bench_config_and_cli", "n_items", 6000, configuration⟩, ⟨"bench_main_pipeline", "n_chunks", 40, pipeline⟩]

def Spec.size (s : Spec) (params : Settings) : Run Int :=
  match params with
  | [] => return s.usualSize
  | [(key, v)] => if key == s.sizeName then Run.ofOption .wrongKind v.number? else Run.fail .wrongKind
  | _ => Run.fail .wrongKind

def run (name : String) (dir : Path) (params : Settings) (times : Nat) : Run (List Value) := do
  let s ← Run.ofOption .lacking (all.find? (·.name == name))
  let work ← s.setup dir (← s.size params)
  (List.replicate times work).mapM id

end Retouch.Workload

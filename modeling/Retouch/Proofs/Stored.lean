import Retouch.Proofs.Layers
import Retouch.Proofs.Parallel
import Retouch.Proofs.Written

/-! Settings stored in the project file and loaded again. A file that is written into a directory is the only thing that
changes, so the root of the project stays where it was: it has a project file now, and no other directory has. The level has
its name in the file and its number in the settings, and either gives the other. -/
namespace Retouch.Stored
open Execution Overwriting Stillness Parallel Layers Written

structure Placed (place : List String) (t t' : FileTree) : Prop where
  file : ∃ content time, t'.at? place = some (.file content time)
  free : t.at? place ≠ some .directory
  others : ∀ q, q ≠ place → t'.at? q = t.at? q

section
variable {place : List String} {t t' : FileTree} (placed : Placed place t t')
include placed

/- A path leads elsewhere in one tree exactly if it does in the other. A way that passes the place ends there in both. -/
theorem walkPlaced {here names q : List String} {node : Node} (apart : q ≠ place) :
    t'.walk here names = .ok (q,node) ↔ t.walk here names = .ok (q,node) := by
  obtain ⟨content,time,file⟩ := placed.file
  induction names generalizing here with
  | nil =>
    by_cases own : here = place
    · have away {t : FileTree} : t.walk here [] ≠ .ok (q,node) := by
        intro led
        exact apart (by simpa [own] using walkPlain (by simp) led)
      exact ⟨fun led => absurd led away,fun led => absurd led away⟩
    · simp only [FileTree.walk,placed.others here own]
  | cons name rest ih =>
    by_cases own : here = place
    · have ended : t.walk here (name :: rest) ≠ .ok (q,node) := by
        rw [FileTree.walk,own]
        split
        · simp
        · simp
        · rename_i directory
          exact absurd directory placed.free
      have ended' : t'.walk here (name :: rest) ≠ .ok (q,node) := by
        rw [FileTree.walk,own,file]
        simp
      exact ⟨fun led => absurd led ended',fun led => absurd led ended⟩
    · simp only [FileTree.walk,placed.others here own]
      cases t.at? here with
      | none => rfl
      | some node =>
        cases node with
        | file _ _ => rfl
        | directory =>
          dsimp only
          split
          · exact ih
          · exact ih

theorem directoryPlaced {here names q : List String} :
    t'.walk here names = .ok (q,.directory) ↔ t.walk here names = .ok (q,.directory) := by
  by_cases own : q = place
  · subst own
    obtain ⟨content,time,file⟩ := placed.file
    constructor
    · intro led
      rw [walkNode led] at file
      cases file
    · exact fun led => absurd (walkNode led) placed.free
  · exact walkPlaced placed own

theorem isDirectoryPlaced (cwd p : Path) : t'.isDirectory cwd p = t.isDirectory cwd p := by
  have found (t : FileTree) : t.isDirectory cwd p = true ↔ ∃ q, t.follow cwd p = .ok (q,.directory) := by
    unfold FileTree.isDirectory
    split <;> simp_all
  rw [Bool.eq_iff_iff,found,found]
  exact exists_congr (fun q => directoryPlaced placed)

theorem isPresentPlaced {p : Path} (plain : Plain p) (apart : p.parts ≠ place) (cwd : Path) :
    t'.isPresent cwd p = t.isPresent cwd p := by
  have found (t : FileTree) : t.isPresent cwd p = true ↔ ∃ node, t.follow cwd p = .ok (p.parts,node) := by
    unfold FileTree.isPresent
    cases led : t.follow cwd p with
    | error fault => simp [Except.toBool]
    | ok found =>
      obtain ⟨q,node⟩ := found
      simp [Except.toBool,← followPlain plain led]
  rw [Bool.eq_iff_iff,found,found]
  exact exists_congr (fun node => walkPlaced placed apart)

theorem isFilePlaced {p : Path} (plain : Plain p) (apart : p.parts ≠ place) (cwd : Path) :
    t'.isFile cwd p = t.isFile cwd p := by
  have found (t : FileTree) : t.isFile cwd p = true ↔ ∃ content time, t.follow cwd p = .ok (p.parts,.file content time) := by
    unfold FileTree.isFile
    split
    · rename_i led
      simp [led,← followPlain plain led]
    · simp_all
  rw [Bool.eq_iff_iff,found,found]
  exact exists_congr (fun content => exists_congr (fun time => walkPlaced placed apart))

end

def child (directory : Path) (name : String) : Path := ⟨directory.anchor,directory.parts ++ [name]⟩

theorem walkOn {t : FileTree} {here names place : List String} {node : Node} (led : t.walk here names = .ok (place,node))
    (more : List String) : t.walk here (names ++ more) = t.walk place more := by
  induction names generalizing here with
  | nil =>
    obtain rfl : place = here := by simpa using walkPlain (by simp) led
    rfl
  | cons name rest ih =>
    rw [List.cons_append,FileTree.walk]
    rw [FileTree.walk] at led
    split at led
    · cases led
    · cases led
    · split at led
      · rename_i back
        rw [if_pos back]
        exact ih led
      · rename_i forward
        rw [if_neg forward]
        exact ih led

theorem walkBefore {t : FileTree} {here names : List String} {name : String} {found : List String × Node}
    (led : t.walk here (names ++ [name]) = .ok found) : ∃ directory, t.walk here names = .ok (directory,.directory) := by
  induction names generalizing here with
  | nil =>
    rw [List.nil_append,FileTree.walk] at led
    split at led
    · cases led
    · cases led
    · rename_i directory
      exact ⟨here,by rw [FileTree.walk,directory]⟩
  | cons first rest ih =>
    rw [List.cons_append,FileTree.walk] at led
    rw [FileTree.walk]
    split at led
    · cases led
    · cases led
    · split at led
      · rename_i back
        rw [if_pos back]
        exact ih led
      · rename_i forward
        rw [if_neg forward]
        exact ih led

section
variable {t t' : FileTree} {cwd directory : Path} {name : String}

theorem childParts : (cwd.join (child directory name)).parts = (cwd.join directory).parts ++ [name] := by
  unfold Path.join child Path.isAbsolute
  split <;> simp

theorem childParent : (⟨(child directory name).anchor,(child directory name).parts.dropLast⟩ : Path) = directory := by
  simp [child]

theorem childFollowed {found : List String × Node} (led : t.follow cwd (child directory name) = .ok found) :
    ∃ place, t.follow cwd directory = .ok (place,.directory) := by
  rw [FileTree.follow,childParts] at led
  exact walkBefore led

variable (forward : name ≠ "..")
include forward

theorem followChild {place : List String} (led : t.follow cwd directory = .ok (place,.directory)) :
    t.follow cwd (child directory name) = t.walk (place ++ [name]) [] := by
  have step : t.walk place [name] = t.walk (place ++ [name]) [] := by
    conv_lhs => rw [FileTree.walk,walkNode led]
    dsimp only
    rw [if_neg (by simpa using forward)]
  rw [FileTree.follow,childParts,walkOn led,step]

theorem writtenChild {content : ByteArray} {now : Int} (wrote : t.write cwd (child directory name) content now = .ok t') :
    ∃ place, t.follow cwd directory = .ok (place,.directory) ∧ Placed (place ++ [name]) t t' ∧
      t'.follow cwd (child directory name) = .ok (place ++ [name],.file content now) := by
  obtain ⟨place,led,free,rfl⟩ : ∃ place, t.follow cwd directory = .ok (place,.directory) ∧
      t.at? (place ++ [name]) ≠ some .directory ∧ t' = t.put (place ++ [name]) (.file content now) := by
    have named : (child directory name).name = name := by simp [child,Path.name]
    rw [FileTree.write,childParent,named] at wrote
    split at wrote
    · cases wrote
    · rename_i place' held time there
      cases wrote
      obtain ⟨place,led⟩ := childFollowed there
      rw [followChild forward led] at there
      obtain rfl : place' = place ++ [name] := by simpa using walkPlain (by simp) there
      exact ⟨place,led,by simp [walkNode there],rfl⟩
    · rename_i missing
      split at wrote
      · rename_i place led
        cases wrote
        refine ⟨place,led,fun directory => ?_,rfl⟩
        rw [followChild forward led,FileTree.walk,directory] at missing
        cases missing
      · cases wrote
      · cases wrote
    · cases wrote
  have put (q : List String) := @atPut t (place ++ [name]) (by simp) (.file content now) q
  have placed : Placed (place ++ [name]) t (t.put (place ++ [name]) (.file content now)) :=
    ⟨⟨content,now,by rw [put,if_pos rfl]⟩,free,fun q apart => by rw [put,if_neg apart]⟩
  refine ⟨place,led,placed,?_⟩
  rw [followChild forward ((directoryPlaced placed).mpr led),FileTree.walk,put,if_pos rfl]

theorem childWritten {place : List String} (led : t.follow cwd directory = .ok (place,.directory))
    (free : t.isDirectory cwd (child directory name) = false) (content : ByteArray) (now : Int) :
    ∃ t', t.write cwd (child directory name) content now = .ok t' := by
  have there := followChild forward led
  unfold FileTree.isDirectory at free
  rw [FileTree.write,childParent]
  rw [there,FileTree.walk] at free ⊢
  cases held : t.at? (place ++ [name]) with
  | none =>
    rw [led]
    exact ⟨_,rfl⟩
  | some node =>
    cases node with
    | file content time => exact ⟨_,rfl⟩
    | directory => simp [held] at free

end

def projectName : String := "pyproject.toml"

section
variable {t t' : FileTree} {root : Path} (placed : Placed (root.parts ++ [projectName]) t t')
include placed

theorem markedPlaced {directory : Path} (plain : Plain directory) (apart : directory.parts ≠ root.parts) :
    isProjectRoot t' directory = isProjectRoot t directory := by
  have below (name : String) (forward : name ≠ "..") : Plain ⟨directory.anchor,directory.parts ++ [name]⟩ :=
    ⟨plain.absolute,by simpa using ⟨plain.forward,forward.symm⟩⟩
  have elsewhere (name : String) : directory.parts ++ [name] ≠ root.parts ++ [projectName] := fun same =>
    apart (List.append_inj_left' same rfl)
  unfold isProjectRoot
  dsimp only
  rw [isPresentPlaced placed (below ".git" (by decide)) (elsewhere _),isDirectoryPlaced placed,
    isFilePlaced placed (below "pyproject.toml" (by decide)) (elsewhere _)]

end

theorem abovePlain {base q : Path} (named : base.anchor = .root ∧ ".." ∉ base.parts) (above : q ∈ base.ancestors ++ [base]) :
    q.anchor = .root ∧ ".." ∉ q.parts := by
  rcases List.mem_append.mp above with inside | own
  · obtain ⟨n,_,rfl⟩ := List.mem_map.mp inside
    exact ⟨named.1,fun back => named.2 (List.mem_of_mem_take back)⟩
  · rw [List.mem_singleton.mp own]
    exact named

theorem projectRootPlain (t : FileTree) (cwd : Path) (sources : List String) :
    (projectRootOf t cwd sources).anchor = .root ∧ ".." ∉ (projectRootOf t cwd sources).parts := by
  have top : (⟨.root,[]⟩ : Path).anchor = .root ∧ ".." ∉ (⟨.root,[]⟩ : Path).parts := by simp
  unfold projectRootOf
  dsimp only
  split
  · exact top
  · rename_i base found
    rw [← Function.comp_def,← List.map_map] at found
    cases marked : (base.ancestors ++ [base]).reverse.find? (isProjectRoot t) with
    | none => exact top
    | some root => exact abovePlain (Listing.commonPathPlain found) (List.mem_reverse.mp (List.mem_of_find?_eq_some marked))

theorem followAnywhere {t : FileTree} {directory : Path} (anchor : directory.anchor = .root) (name : String)
    (cwd cwd' : Path) :
    t.follow cwd (child directory name) = t.follow cwd' (child directory name) := by
  unfold FileTree.follow Path.join child Path.isAbsolute
  simp [anchor]

/- Whatever marks the root of a project lies below it, so the root is a directory. -/
theorem markedDirectory {t : FileTree} {root : Path} (anchor : root.anchor = .root) (mark : isProjectRoot t root = true)
    (cwd : Path) : ∃ place, t.follow cwd root = .ok (place,.directory) := by
  have present {name : String} {found : List String × Node} (led : t.follow root (child root name) = .ok found) :
      ∃ place, t.follow cwd root = .ok (place,.directory) := by
    rw [followAnywhere anchor name root cwd] at led
    exact childFollowed led
  unfold isProjectRoot at mark
  simp only [Bool.or_eq_true] at mark
  rcases mark with (git | mercurial) | project
  · cases led : t.follow root (child root ".git") with
    | ok found => exact present led
    | error fault =>
      change (t.follow root (child root ".git")).toBool = true at git
      rw [led] at git
      cases git
  · unfold FileTree.isDirectory at mercurial
    split at mercurial
    · rename_i led
      exact present led
    · cases mercurial
  · unfold FileTree.isFile at project
    split at project
    · rename_i led
      exact present led
    · cases project

theorem projectRootDirectory (t : FileTree) (cwd : Path) (sources : List String) :
    ∃ place, t.follow cwd (projectRootOf t cwd sources) = .ok (place,.directory) := by
  have plain := projectRootPlain t cwd sources
  unfold projectRootOf at plain ⊢
  dsimp only at plain ⊢
  split
  · exact ⟨[],rfl⟩
  · rename_i base found
    rw [found] at plain
    dsimp only at plain
    cases mark : (base.ancestors ++ [base]).reverse.find? (isProjectRoot t) with
    | none => exact ⟨[],rfl⟩
    | some root =>
      rw [mark] at plain
      exact markedDirectory plain.1 (List.find?_some mark) cwd

theorem findKept {α : Type} {p p' : α → Bool} {a top : α} {xs : List α} (member : a ∈ xs)
    (first : (xs.find? p).getD top = a) (passes : p' a = true) (same : ∀ x ∈ xs, x ≠ a → p' x = p x) :
    (xs.find? p').getD top = a := by
  induction xs with
  | nil => cases member
  | cons x xs ih =>
    by_cases own : x = a
    · subst own
      rw [List.find?_cons_of_pos passes]
      rfl
    · have unpassed : p x = false := by
        by_contra passed
        rw [List.find?_cons_of_pos (by simpa using passed)] at first
        exact own first
      rw [List.find?_cons_of_neg (by simp [unpassed])] at first
      rw [List.find?_cons_of_neg (by simp [same x (by simp) own,unpassed])]
      exact ih ((List.mem_cons.mp member).resolve_left (Ne.symm own)) first (fun y inside => same y (by simp [inside]))

theorem rootKept {t t' : FileTree} {cwd : Path} {sources : List String}
    (placed : Placed ((projectRootOf t cwd sources).parts ++ [projectName]) t t')
    (there : t'.isFile cwd (child (projectRootOf t cwd sources) projectName) = true) :
    projectRootOf t' cwd sources = projectRootOf t cwd sources := by
  have plain := projectRootPlain t cwd sources
  generalize found : projectRootOf t cwd sources = root at placed there plain
  have passes : isProjectRoot t' root = true := by
    unfold FileTree.isFile at there
    rw [followAnywhere plain.1 projectName cwd root] at there
    unfold isProjectRoot
    change (_ || t'.isFile root (child root projectName)) = true
    rw [FileTree.isFile,there,Bool.or_true]
  have ancestries : ancestry t' cwd = ancestry t cwd := by
    funext p
    unfold ancestry
    rw [isDirectoryPlaced placed]
  unfold projectRootOf at found ⊢
  dsimp only at found ⊢
  rw [ancestries]
  split at found
  · exact found
  · rename_i base common
    rw [← Function.comp_def,← List.map_map] at common
    have named := Listing.commonPathPlain common
    have top : (⟨.root,[]⟩ : Path) ∈ base.ancestors ++ [base] := by
      obtain ⟨anchor,parts⟩ := base
      obtain rfl : anchor = .root := named.1
      cases parts with
      | nil => simp
      | cons name rest => exact List.mem_append_left _ (List.mem_map.mpr ⟨0,by simp,rfl⟩)
    refine findKept ?_ found passes (fun q inside apart => ?_)
    · cases marked : (base.ancestors ++ [base]).reverse.find? (isProjectRoot t) with
      | none =>
        rw [marked] at found
        rw [← found]
        exact List.mem_reverse.mpr top
      | some q =>
        rw [marked] at found
        rw [← found]
        exact List.mem_of_find?_eq_some marked
    · obtain ⟨anchor,forward⟩ := abovePlain named (List.mem_reverse.mp inside)
      refine markedPlaced placed ⟨by rw [Path.isAbsolute,anchor]; rfl,forward⟩ (fun same => apart ?_)
      obtain ⟨_,parts⟩ := q
      obtain ⟨_,parts'⟩ := root
      simp_all

def asked (sources : List String) : List String := if sources.isEmpty then ["."] else sources

def projectPath (s : Session) (sources : List String) : Path :=
  (rootFor s (asked sources)).join ⟨.relative,["pyproject.toml"]⟩

theorem rootUnknown {s : Session} {sources : List String} (unknown : s.projectRoots.lookup sources = none) :
    rootFor s sources = projectRootOf s.tree s.cwd sources := by
  rw [rootFor,unknown]
  rfl

theorem projectRootFound (sources : List String) (tools : Tools) (s : Session) :
    ∃ u, exec (projectRoot sources) tools s = (.ok (rootFor s sources),u) ∧ Still s u :=
  ⟨_,Prod.ext (execProjectRoot sources tools s) rfl,calmStill (Inquiry.withinProjectRoot calm sources tools s).1⟩

theorem loadProject {sources : List String} {tools : Tools} {s : Session} {place : List String} {text : String} {time : Int}
    {project : Toml.Table} (found : s.tree.follow s.cwd (projectPath s sources) = .ok (place,.file text.toUTF8 time))
    (breaks : readBreaks text = text) (parsed : Toml.parse? ⟨true⟩ text = some project) {settings : Settings}
    (own : Config.ofProject project = .ok settings) : ∃ u, exec (Config.load sources) tools s = (.ok settings,u) := by
  obtain ⟨u,run,tree,cwd⟩ := projectRootFound (asked sources) tools s
  rw [← tree,← cwd] at found
  have file : u.tree.isFile u.cwd (projectPath s sources) = true := by
    rw [FileTree.isFile,found]
  have file? : exec (projectFile? (asked sources)) tools s = (.ok (some (projectPath s sources)),u) := by
    rw [projectFile?,execBindOk run,execBindOk (execGet tools u)]
    change (Except.ok (if u.tree.isFile u.cwd (projectPath s sources) then _ else _),u) = _
    rw [if_pos file]
    rfl
  have bytes : exec (Run.readBytes (projectPath s sources)) tools u = (.ok (text.toUTF8,time),u) := by
    rw [Run.readBytes,execBindOk (execGet tools u),FileTree.read,found]
    rfl
  have decoded : exec (Run.decode text.toUTF8) tools u = (.ok text,u) := by
    rw [Run.decode,Inquiry.textDecoded]
    rfl
  have read : exec (Run.readText (projectPath s sources)) tools u = (.ok text,u) := by
    rw [Run.readText,execBindOk bytes]
    dsimp only
    rw [execBindOk decoded,breaks]
    rfl
  refine ⟨u,?_⟩
  change exec (projectFile? (asked sources) >>= _) tools s = _
  rw [execBindOk file?]
  dsimp only
  rw [execBindOk read,parsed]
  exact (congrArg (fun e => exec (liftM e : Run Settings) tools u) own).trans rfl

structure Storing (settings : Settings) : Prop where
  distinct : (settings.map Prod.fst).Nodup
  entries : ∀ e ∈ settings, Bare e.1 ∧ Storable e.2
  level : ∀ v, settings.lookup "log_level" = some v → ∃ name n, v = .int n ∧ (name,n) ∈ levelNames

theorem levelSimple {name : String} {n : Int} (named : (name,n) ∈ levelNames) :
    SimpleText name ∧ Verbosity.numberOf? name = some n := by
  simp only [levelNames,List.mem_cons,Prod.mk.injEq,List.not_mem_nil,or_false] at named
  rcases named with ⟨rfl,rfl⟩ | ⟨rfl,rfl⟩ | ⟨rfl,rfl⟩ | ⟨rfl,rfl⟩ | ⟨rfl,rfl⟩ | ⟨rfl,rfl⟩ <;> exact ⟨ordinaryText rfl,rfl⟩

section
variable {s : Settings} {key : String} {v : Value} (found : s.lookup key = some v)
include found

theorem putMapped (w : Value) : s.put key w = s.map (fun e => if e.1 == key then (key,w) else e) := by
  have inside : s.any (·.1 == key) = true := by
    obtain ⟨before,after,split,_⟩ := List.lookup_eq_some_iff.mp found
    simp [split]
  rw [Settings.put,if_pos inside]

theorem onlyEntry (keyed : (s.map Prod.fst).Nodup) {e : String × Value} (member : e ∈ s) (own : e.1 = key) :
    e = (key,v) := by
  obtain ⟨here,held⟩ := e
  obtain rfl : here = key := own
  have same := (Lookup.foundOnly keyed member).symm.trans found
  rw [Option.some.inj same]

theorem putBack (keyed : (s.map Prod.fst).Nodup) (w : Value) : (s.put key w).put key v = s := by
  have second : (s.put key w).lookup key = some w := by rw [Lookup.settingPut,if_pos rfl]
  rw [putMapped second,putMapped found,List.map_map]
  refine (List.map_congr_left (fun e member => ?_)).trans (List.map_id s)
  by_cases own : e.1 = key
  · simp [onlyEntry found keyed member own]
  · simp [own]

theorem givenPut (keyed : (s.map Prod.fst).Nodup) {w : Value} (held : isGiven v = true) (held' : isGiven w = true) :
    given (s.put key w) = (given s).put key w := by
  have kept : (given s).lookup key = some v := by
    rw [given,Lookup.lookupFiltered keyed,found]
    simp [Option.filter,held]
  rw [putMapped kept,putMapped found,given,given,List.filter_map]
  congr 1
  refine List.filter_congr (fun e member => ?_)
  by_cases own : e.1 = key
  · simp [onlyEntry found keyed member own,held,held']
  · simp [own]

end

theorem shownRead {settings : Settings} (storing : Storing settings) : ∃ shown, Config.effective settings = .ok shown ∧
    (shown.map Prod.fst).Nodup ∧ (∀ e ∈ shown, Bare e.1 ∧ Storable e.2) ∧
      Config.ofProject (held (given shown)) = .ok (given settings) := by
  have project (own : Settings) : Config.ofProject (held own) = Verbosity.swapIn own := by
    cases own <;> rfl
  rw [Config.effective]
  cases found : settings.lookup "log_level" with
  | none =>
    have missing : (given settings).lookup "log_level" = none := by
      rw [given,Lookup.lookupFiltered storing.distinct,found]
      rfl
    refine ⟨settings,by rw [Verbosity.swapIn,found],storing.distinct,storing.entries,?_⟩
    rw [project,Verbosity.swapIn,missing]
  | some v =>
    obtain ⟨name,n,rfl,named⟩ := storing.level v found
    obtain ⟨simple,number⟩ := levelSimple named
    have keyed : ((given settings).map Prod.fst).Nodup := storing.distinct.sublist (List.filter_sublist.map _)
    have kept : (given settings).lookup "log_level" = some (.int n) := by
      rw [given,Lookup.lookupFiltered storing.distinct,found]
      rfl
    have back : ((given settings).put "log_level" (.text name)).lookup "log_level" = some (.text name) := by
      rw [Lookup.settingPut,if_pos rfl]
    refine ⟨settings.put "log_level" (.text name),swapShown found named,Lookup.keysPut _ _ storing.distinct,?_,?_⟩
    · intro e member
      rcases Lookup.memPut member with ⟨same,value⟩ | ⟨_,inside⟩
      · rw [same,value]
        exact ⟨⟨by simp,List.all_eq_true.mp rfl⟩,.text simple⟩
      · exact storing.entries e inside
    · rw [project,givenPut found storing.distinct rfl rfl,Verbosity.swapIn,back]
      simp only [Verbosity.swapped,number]
      exact congrArg Except.ok (putBack kept keyed _)

theorem rootAfterwards {s : Session} {sources : List String} {tree : FileTree} {content : ByteArray} {now : Int}
    (wrote : s.tree.write s.cwd (projectPath s sources) content now = .ok tree) :
    rootFor { s with tree := tree } (asked sources) = rootFor s (asked sources) ∧
      ∃ place, tree.follow s.cwd (projectPath s sources) = .ok (place,.file content now) := by
  obtain ⟨place,led,placed,there⟩ := writtenChild (show projectName ≠ ".." by decide) wrote
  refine ⟨?_,_,there⟩
  cases known : s.projectRoots.lookup (asked sources) with
  | some root => simp only [rootFor,known,Option.getD_some]
  | none =>
    have found := rootUnknown known
    have plain := projectRootPlain s.tree s.cwd (asked sources)
    rw [found] at led there
    obtain rfl := followPlain ⟨by rw [Path.isAbsolute,plain.1]; rfl,plain.2⟩ led
    have kept := rootKept placed (by rw [FileTree.isFile,there])
    rw [found,rootFor]
    simp only [known]
    exact kept

theorem storedSettingsLoad (settings : Settings) (sources : List String) (tools : Tools) (s : Session)
    (storing : Storing settings) :
    ∃ text, (Config.effective settings >>= Config.dump) = .ok text ∧
      (∀ t, exec (Run.writeText (projectPath s sources) text) tools s = (.ok (),t) →
        ∃ u, exec (Config.load sources) tools t = (.ok (given settings),u)) ∧
      (s.projectRoots.lookup (asked sources) = none → s.tree.isDirectory s.cwd (projectPath s sources) = false →
        ∃ t, exec (Run.writeText (projectPath s sources) text) tools s = (.ok (),t)) := by
  obtain ⟨shown,effective,distinct,entries,project⟩ := shownRead storing
  have stored : ∀ e ∈ given shown, Bare e.1 ∧ ReadsBack e.2 (valueText e.2) := by
    intro e member
    obtain ⟨inside,held⟩ := List.mem_filter.mp member
    exact ⟨(entries e inside).1,storableReadsBack (entries e inside).2 held⟩
  obtain ⟨breaks,parsed⟩ := fileRead stored (distinct.sublist (List.filter_sublist.map _))
  refine ⟨"[tool.darker]\n" ++ linesOf (given shown),?_,fun t run => ?_,fun unknown free => ?_⟩
  · rw [effective]
    change Config.dump shown = _
    rw [Config.dump,linesWritten entries]
    rfl
  · rw [Run.writeText,execBindOk (execGet tools s)] at run
    cases wrote : s.tree.write s.cwd (projectPath s sources) ("[tool.darker]\n" ++ linesOf (given shown)).toUTF8 0 with
    | error fault =>
      rw [wrote] at run
      cases run
    | ok tree =>
      rw [wrote] at run
      cases run
      obtain ⟨root,place,led⟩ := rootAfterwards wrote
      have there : tree.follow s.cwd (projectPath { s with tree := tree } sources) =
          .ok (place,.file ("[tool.darker]\n" ++ linesOf (given shown)).toUTF8 0) := by
        rw [projectPath,root]
        exact led
      exact loadProject there breaks parsed project
  · obtain ⟨place,led⟩ := projectRootDirectory s.tree s.cwd (asked sources)
    rw [← rootUnknown unknown] at led
    obtain ⟨tree,wrote⟩ : ∃ tree, s.tree.write s.cwd (projectPath s sources)
        ("[tool.darker]\n" ++ linesOf (given shown)).toUTF8 0 = .ok tree :=
      childWritten (show projectName ≠ ".." by decide) led free _ 0
    refine ⟨{ s with tree := tree },?_⟩
    rw [Run.writeText,execBindOk (execGet tools s),wrote]
    rfl

def runSettings : Settings :=
  [("src",.list [.text "a.py",.text "sub dir/b.py"]),("revision",.text "HEAD~1"),("check",.bool true),("config",.none),
    ("lint",.list []),("line_length",.int 88),("log_level",.int 40),("skip_string_normalization",.none)]

theorem runStoring : Storing runSettings := by
  have bare {key : String} (filled : key.toList ≠ []) (plain : key.toList.all Toml.isBareKeyChar = true) : Bare key :=
    ⟨filled,List.all_eq_true.mp plain⟩
  have paths : Storable (.list (["a.py","sub dir/b.py"].map .text)) := by
    refine .list ?_
    simp only [List.forall_mem_cons]
    exact ⟨ordinaryText rfl,ordinaryText rfl,List.forall_mem_nil _⟩
  have linters : Storable (.list (([] : List String).map .text)) := .list (List.forall_mem_nil _)
  refine ⟨(by decide : (runSettings.map Prod.fst).Nodup),?_,?_⟩
  · simp only [runSettings,List.forall_mem_cons]
    exact ⟨⟨bare (by simp) rfl,paths⟩,⟨bare (by simp) rfl,.text (ordinaryText rfl)⟩,⟨bare (by simp) rfl,.bool _⟩,
      ⟨bare (by simp) rfl,.none⟩,⟨bare (by simp) rfl,linters⟩,⟨bare (by simp) rfl,.int _⟩,⟨bare (by simp) rfl,.int _⟩,
      ⟨bare (by simp) rfl,.none⟩,List.forall_mem_nil _⟩
  · intro v found
    cases found
    exact ⟨"ERROR",40,rfl,by decide⟩

theorem runSettingsStored : ∃ text t u, (Config.effective runSettings >>= Config.dump) = .ok text ∧
    exec (Run.writeText (projectPath tableSession ["a.py"]) text) tableTools tableSession = (.ok (),t) ∧
    exec (Config.load ["a.py"]) tableTools t = (.ok [("src",.list [.text "a.py",.text "sub dir/b.py"]),
      ("revision",.text "HEAD~1"),("check",.bool true),("lint",.list []),("line_length",.int 88),
      ("log_level",.int 40)],u) := by
  obtain ⟨text,dumped,loads,writes⟩ := storedSettingsLoad runSettings ["a.py"] tableTools tableSession runStoring
  obtain ⟨t,written⟩ := writes rfl (by decide +kernel)
  obtain ⟨u,loaded⟩ := loads t written
  exact ⟨text,t,u,dumped,written,loaded⟩

end Retouch.Stored

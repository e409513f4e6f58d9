import Retouch.Proofs.Changes

/-! Two runs side by side. The sessions of the runs may differ in the content of some files, in what was printed and
in what was logged. As long as a step reads none of these files, it comes to the same in both runs and leaves
two sessions that differ in nothing more. -/
namespace Retouch.Parallel
open Execution Inquiry Candidates Listing Overwriting Stillness

def Together (R : Session → Session → Prop) (P : α → β → Prop) (m : Run α) (m' : Run β) : Prop :=
  ∀ tools a b, R a b → R (exec m tools a).2 (exec m' tools b).2 ∧ Matched P (exec m tools a).1 (exec m' tools b).1

abbrev Agrees (R : Session → Session → Prop) (m : Run α) : Prop := Together R Eq m m

theorem togetherBind {R : Session → Session → Prop} {P : α → β → Prop} {Q : γ → δ → Prop} {m : Run α} {m' : Run β}
    {g : α → Run γ} {g' : β → Run δ} (first : Together R P m m')
    (next : ∀ x y, P x y → Together R Q (g x) (g' y)) : Together R Q (m >>= g) (m' >>= g') := by
  intro tools a b related
  obtain ⟨after,matched⟩ := first tools a b related
  rcases run : exec m tools a with ⟨r,c⟩
  rcases run' : exec m' tools b with ⟨r',d⟩
  rw [run,run'] at after matched
  cases matched with
  | ok values =>
    rw [execBindOk run,execBindOk run']
    exact next _ _ values tools c d after
  | error f =>
    rw [execBindError run,execBindError run']
    exact ⟨after,.error f⟩

theorem agreesBind {R : Session → Session → Prop} {m : Run α} {g : α → Run β} (first : Agrees R m)
    (next : ∀ x, Agrees R (g x)) : Agrees R (m >>= g) := by
  refine togetherBind first (fun x y same => ?_)
  subst same
  exact next x

theorem agreesBindWhere {R : Session → Session → Prop} {Q : α → Prop} {m : Run α} {g : α → Run β} (first : Agrees R m)
    (known : ∀ tools s x t, exec m tools s = (.ok x,t) → Q x) (next : ∀ x, Q x → Agrees R (g x)) :
    Agrees R (m >>= g) := by
  intro tools a b related
  obtain ⟨after,matched⟩ := first tools a b related
  rcases run : exec m tools a with ⟨r,c⟩
  rcases run' : exec m tools b with ⟨r',d⟩
  rw [run,run'] at after matched
  cases matched with
  | ok same =>
    subst same
    rw [execBindOk run,execBindOk run']
    exact next _ (known tools a _ c run) tools c d after
  | error f =>
    rw [execBindError run,execBindError run']
    exact ⟨after,.error f⟩

theorem togetherPure {R : Session → Session → Prop} {P : α → β → Prop} {x : α} {y : β} (values : P x y) :
    Together R P (pure x) (pure y) :=
  fun _ _ _ related => ⟨related,.ok values⟩

theorem togetherFail {R : Session → Session → Prop} {P : α → β → Prop} (f : Failure) :
    Together R P (Run.fail f) (Run.fail f) :=
  fun _ _ _ related => ⟨related,.error f⟩

theorem togetherRead {R : Session → Session → Prop} : Agrees R (read : Run Tools) :=
  fun _ _ _ related => ⟨related,.ok rfl⟩

theorem agreesGet {R : Session → Session → Prop} {g : Session → Run α} (next : ∀ a b, R a b → Together R Eq (g a) (g b)) :
    Agrees R (get >>= g) := by
  intro tools a b related
  rw [execBindOk (execGet tools a),execBindOk (execGet tools b)]
  exact next a b related tools a b related

theorem togetherAside {R : Session → Session → Prop} {P : α → α' → Prop} {Q : β → β' → Prop} {c : Prop} [Decidable c]
    {m : Run α} {m' : Run α'} {n : Run β} {n' : Run β'} (aside : c → Together R P m m') (rest : Together R Q n n') :
    Together R Q (if c then m >>= fun _ => n else n) (if c then m' >>= fun _ => n' else n') := by
  split
  · exact togetherBind (aside ‹c›) (fun _ _ _ => rest)
  · exact rest

theorem agreesOfOption {R : Session → Session → Prop} (f : Failure) (o : Option α) : Agrees R (Run.ofOption f o) := by
  cases o with
  | none => exact togetherFail f
  | some x => exact togetherPure rfl

theorem agreesMapM {R : Session → Session → Prop} {g : α → Run β} (xs : List α) (each : ∀ x, Agrees R (g x)) :
    Agrees R (xs.mapM g) := by
  induction xs with
  | nil => exact togetherPure rfl
  | cons x xs ih =>
    rw [List.mapM_cons]
    exact agreesBind (each x) (fun _ => agreesBind ih (fun _ => togetherPure rfl))

theorem agreesForM {R : Session → Session → Prop} {g : α → Run PUnit} (xs : List α) (each : ∀ x, Agrees R (g x)) :
    Agrees R (xs.forM g) := by
  induction xs with
  | nil => exact togetherPure rfl
  | cons x xs ih => exact agreesBind (each x) (fun _ => ih)

theorem agreesFilterM {R : Session → Session → Prop} {g : α → Run Bool} (xs : List α) (each : ∀ x, Agrees R (g x)) :
    Agrees R (xs.filterM g) := by
  have loop (kept : List α) : Agrees R (xs.filterAuxM g kept) := by
    induction xs generalizing kept with
    | nil => exact togetherPure rfl
    | cons x xs ih => exact agreesBind (each x) (fun _ => ih _)
  exact agreesBind (loop []) (fun _ => togetherPure rfl)

theorem ancestrySame {places : List (List String)} {t t' : FileTree} (h : Overwritten places t t') (cwd : Path) :
    ancestry t' cwd = ancestry t cwd := by
  funext p
  unfold ancestry
  rw [isDirectorySame h cwd p]

theorem projectRootSame {places : List (List String)} {t t' : FileTree} (h : Overwritten places t t') (cwd : Path)
    (sources : List String) : projectRootOf t' cwd sources = projectRootOf t cwd sources := by
  have marked : isProjectRoot t' = isProjectRoot t := by
    funext directory
    unfold isProjectRoot
    dsimp only
    rw [isPresentSame h,isDirectorySame h,isFileSame h]
  unfold projectRootOf
  rw [ancestrySame h,marked]

structure Near (places : List (List String)) (a b : Session) : Prop where
  tree : Overwritten places b.tree a.tree
  cwd : a.cwd = b.cwd
  roots : ∀ sources, rootFor a sources = rootFor b sources

structure Sees (places : List (List String)) (R : Session → Session → Prop) : Prop where
  near : ∀ {a b}, R a b → Near places a b
  quiet : ∀ {a a' b b'}, R a b → Calm a a' → Calm b b' → R a' b'

theorem nearSees (places : List (List String)) : Sees places (Near places) where
  near h := h
  quiet h left right := ⟨left.tree ▸ right.tree ▸ h.tree,by rw [left.cwd,right.cwd,h.cwd],
    fun sources => by rw [left.roots,right.roots,h.roots]⟩

theorem execProjectRoot (sources : List String) (tools : Tools) (s : Session) :
    (exec (projectRoot sources) tools s).1 = .ok (rootFor s sources) := by
  rw [projectRoot,execBindOk (execGet tools s),rootFor]
  cases s.projectRoots.lookup sources <;> rfl

section
variable {places : List (List String)} {R : Session → Session → Prop} (sees : Sees places R)
include sees

theorem agreesCalm {m : Run α} (calm : Stands m)
    (values : ∀ tools a b, R a b → (exec m tools a).1 = (exec m tools b).1) : Agrees R m :=
  fun tools a b related => ⟨sees.quiet related (calm tools a).1 (calm tools b).1,matchedSame (values tools a b related)⟩

theorem agreesNote (level : Level) (channel : Channel) (message : String) : Agrees R (Run.note level channel message) :=
  agreesCalm sees (withinNote calm _ _ _) (fun _ _ _ _ => rfl)

theorem agreesDebug (channel : Channel) (message : String) : Agrees R (Run.debug channel message) :=
  agreesNote sees _ _ _

theorem agreesReadBytes {p : Path} (apart : ∀ t cwd, Apart places t cwd p) : Agrees R (Run.readBytes p) := by
  refine agreesCalm sees (withinReadBytes calm p) (fun tools a b related => ?_)
  have near := sees.near related
  simp only [Run.readBytes,execBind,execGet,near.cwd,readSame near.tree b.cwd p (apart _ _)]
  cases b.tree.read b.cwd p <;> rfl

theorem agreesReadText {p : Path} (apart : ∀ t cwd, Apart places t cwd p) : Agrees R (Run.readText p) :=
  agreesBind (agreesReadBytes sees apart) (fun _ => agreesBind (agreesOfOption _ _) (fun _ => togetherPure rfl))

theorem agreesGit (root : Path) (args : List String) : Agrees R (askGit root args) :=
  agreesCalm sees (withinGit calm root args) (fun _ _ _ _ => rfl)

theorem agreesContentAt {path root : Path} (apart : ∀ t cwd, Apart places t cwd (root.join path)) (revision : String) :
    Agrees R (contentAt path revision root) := by
  unfold contentAt
  split
  · exact agreesBind (agreesReadBytes sees apart) (fun _ => agreesBind (agreesOfOption _ _) (fun _ => togetherPure rfl))
  · refine agreesBind (agreesGit sees _ _) (fun answer => ?_)
    split
    · exact togetherPure rfl
    · split
      · exact togetherFail _
      · exact agreesBind (agreesOfOption _ _) (fun _ => togetherPure rfl)

theorem agreesDiffDocuments (old new : Document) : Agrees R (diffDocuments old new) :=
  agreesBind (agreesDebug sees _ _) (fun _ => togetherPure rfl)

theorem agreesEditedSince {path root : Path} (apart : ∀ t cwd, Apart places t cwd (root.join path))
    (range : RevisionRange) (content : Document) (context : Int) :
    Agrees R (editedSince root range path content context) :=
  agreesBind (agreesContentAt sees apart _) (fun _ =>
    agreesBind (agreesDiffDocuments sees _ _) (fun _ => agreesOfOption _ _))

theorem agreesChoose (edited : List Int) (chunks : List Chunk) : Agrees R (choose edited chunks) :=
  agreesBind (agreesForM _ (fun message => agreesDebug sees .chooser message)) (fun _ => togetherPure rfl)

theorem agreesGitLines (root : Path) (args : List String) : Agrees R (gitLines root args) := by
  refine agreesBind (agreesGit sees _ _) (fun answer => ?_)
  split
  · exact togetherFail _
  · split
    · exact togetherFail _
    · exact agreesBind (agreesOfOption _ _) (fun _ => togetherPure rfl)

theorem agreesBaseRevision (range : RevisionRange) (root : Path) : Agrees R (baseRevision range root) := by
  unfold baseRevision
  split
  · exact agreesBind (agreesGitLines sees _ _) (fun _ => agreesOfOption _ _)
  · exact togetherPure rfl

theorem agreesBelowRoot (root : Path) (paths : List Path) : Agrees R (belowRoot root paths) := by
  refine agreesCalm sees (withinBelowRoot calm root paths) (fun tools a b related => ?_)
  rw [belowRoot,execBindOk (execGet tools a),execBindOk (execGet tools b),(sees.near related).cwd]
  refine matchedEq (@agreesBind _ _ R _ _ ?_ (fun _ => togetherPure rfl) tools a b related).2
  exact agreesMapM paths (fun p => agreesOfOption _ _)

theorem agreesReformatted (p : Path) : Agrees R (shouldReformat p) := by
  refine agreesCalm sees ?_ (fun tools a b related => ?_)
  · exact standsBind (withinGet calmLasting) (fun _ => standsPure _)
  · have near := sees.near related
    simp only [shouldReformat,execBind,execGet,execPure,near.cwd,isPresentSame near.tree b.cwd p]

theorem agreesModifiedFiles (paths : List Path) (range : RevisionRange) (root : Path) :
    Agrees R (modifiedFiles paths range root) := by
  have listed (names : List String) : Agrees R (do
      let files ← (names.map Path.ofString).eraseDups.filterM (fun p => shouldReformat (root.join p))
      return Path.sort files) :=
    agreesBind (agreesFilterM _ (fun p => agreesReformatted sees _)) (fun _ => togetherPure rfl)
  refine agreesBind (agreesBelowRoot sees _ _) (fun below => ?_)
  refine agreesBind (agreesBaseRevision sees _ _) (fun base => ?_)
  refine agreesBind (agreesGitLines sees _ _) (fun changed => ?_)
  dsimp only
  split
  · exact agreesBind (agreesGitLines sees _ _) (fun added => listed (changed ++ added))
  · exact agreesBind (togetherPure rfl) (fun added => listed (changed ++ added))

theorem agreesCommonRoot (paths : List Path) : Agrees R (commonRoot paths) := by
  refine agreesCalm sees (withinCommonRoot calm paths) (fun tools a b related => ?_)
  have near := sees.near related
  simp only [commonRoot,execBind,execGet,near.cwd,ancestrySame near.tree b.cwd]
  cases commonPath ((paths.map b.cwd.resolve).map (ancestry b.tree b.cwd)) <;> rfl

theorem agreesListing (sources : List Path) (range : RevisionRange) : Agrees R (listing sources range) :=
  agreesBind (agreesCommonRoot sees _) (fun _ => agreesBind (agreesModifiedFiles sees _ _ _) (fun _ => togetherPure rfl))

theorem agreesProjectRoot (sources : List String) : Agrees R (projectRoot sources) := by
  refine agreesCalm sees (withinProjectRoot calm sources) (fun tools a b related => ?_)
  rw [execProjectRoot,execProjectRoot,(sees.near related).roots]

theorem agreesProjectFile (sources : List String) : Agrees R (projectFile? sources) := by
  refine agreesBind (agreesProjectRoot sees sources) (fun root => ?_)
  refine agreesCalm sees (standsBind (withinGet calmLasting) (fun _ => standsPure _)) (fun tools a b related => ?_)
  have near := sees.near related
  simp only [execBind,execGet,execPure,near.cwd,isFileSame near.tree b.cwd]

theorem agreesReadSettings {file : String} (apart : ∀ t cwd, Apart places t cwd (Path.ofString file)) :
    Agrees R (Formatter.readSettings file) := by
  refine agreesCalm sees (withinReadSettings calm file) (fun tools a b related => ?_)
  have near := sees.near related
  rw [Formatter.readSettings,execBindOk (execGet tools a),execBindOk (execGet tools b),near.cwd,
    readSame near.tree b.cwd _ (apart _ _)]
  cases b.tree.read b.cwd (Path.ofString file) with
  | error fault => rfl
  | ok found =>
    refine matchedEq (@agreesBind _ _ R _ _ (agreesOfOption _ _) (fun text => ?_) tools a b related).2
    refine agreesBind (agreesOfOption _ _) (fun config => agreesBind (agreesOfOption _ _) (fun settings => ?_))
    exact togetherPure rfl

theorem agreesSettingsFile (source : Path) (requested : Value) : Agrees R (Formatter.settingsFile? source requested) := by
  unfold Formatter.settingsFile?
  split
  · split
    · exact togetherPure rfl
    · exact togetherFail _
  · exact agreesBind (agreesProjectFile sees _) (fun _ => togetherPure rfl)

end

def Sources (places : List (List String)) : Prop := ∀ directory, directory ++ ["pyproject.toml"] ∉ places

theorem namesAfterSlash (name xs ys : List Char) :
    Path.namesAfter name (xs ++ '/' :: ys) = Path.namesAfter name xs ++ Path.namesAfter [] ys := by
  fun_induction Path.namesAfter name xs with
  | case1 name => rfl
  | case2 name rest ih => simp [Path.namesAfter,ih]
  | case3 name c rest other ih =>
    rw [List.cons_append,Path.namesAfter]
    · exact ih
    · exact other

theorem projectFileNamed (root : Path) :
    (Path.ofString (root.join ⟨.relative,["pyproject.toml"]⟩).render).parts.getLast? = some "pyproject.toml" := by
  have last (xs : List Char) :
      ((Path.namesAfter [] (xs ++ '/' :: "pyproject.toml".toList)).filter (fun n => n != "" && n != ".")).getLast? =
        some "pyproject.toml" := by
    rw [namesAfterSlash,List.filter_append]
    have own : (Path.namesAfter [] "pyproject.toml".toList).filter (fun n => n != "" && n != ".") = ["pyproject.toml"] := by
      decide +kernel
    rw [own]
    simp
  obtain ⟨anchor,parts⟩ := root
  cases parts with
  | nil => cases anchor <;> decide +kernel
  | cons first rest =>
    have whole : (Path.join ⟨anchor,first :: rest⟩ ⟨.relative,["pyproject.toml"]⟩).render.toList =
        ((Path.prefixText anchor).toList ++ ("/".intercalate (first :: rest)).toList) ++ '/' :: "pyproject.toml".toList := by
      have filled : (anchor == Anchor.relative && (first :: rest ++ ["pyproject.toml"]).isEmpty) = false := by simp
      have joined := @String.intercalate_append_of_ne_nil (first :: rest) ["pyproject.toml"] "/" (by simp) (by simp)
      change (if (anchor == Anchor.relative && (first :: rest ++ ["pyproject.toml"]).isEmpty) = true then "."
        else Path.prefixText anchor ++ "/".intercalate (first :: rest ++ ["pyproject.toml"])).toList = _
      rw [filled,joined]
      simp
    unfold Path.ofString
    rw [whole]
    exact last _

theorem apartProjectFile {places : List (List String)} (sources : Sources places) (root : Path) (t : FileTree) (cwd : Path) :
    Apart places t cwd (Path.ofString (root.join ⟨.relative,["pyproject.toml"]⟩).render) := by
  intro place node led
  obtain ⟨directory,rfl⟩ := followNamed (projectFileNamed root) (by decide) led
  exact sources directory

theorem settingsFileSource {source requested tools s file t} (unasked : requested.truthy = false)
    (run : exec (Formatter.settingsFile? source requested) tools s = (.ok (some file),t)) :
    ∃ root : Path, file = (root.join ⟨.relative,["pyproject.toml"]⟩).render := by
  unfold Formatter.settingsFile? at run
  rw [unasked] at run
  rcases execBindCases run with ⟨e,_,impossible⟩ | ⟨found,u,looked,last⟩
  · cases impossible
  rcases execBindCases looked with ⟨e,_,impossible⟩ | ⟨root,v,_,rest⟩
  · cases impossible
  rw [execBindOk (execGet tools v)] at rest
  cases rest
  split at last
  · cases last
    exact ⟨root,rfl⟩
  · cases last

def Free (places : List (List String)) (requested : Value) : Prop :=
  (requested.truthy = false ∧ Sources places) ∨ places = []

theorem freeSources {places : List (List String)} {requested : Value} (free : Free places requested) : Sources places := by
  rcases free with ⟨_,sources⟩ | rfl
  · exact sources
  · exact fun _ member => by cases member

theorem textNamed {file : Path} (text : file.suffix = ".py") :
    ∃ name, file.parts.getLast? = some name ∧ name ≠ ".." ∧ name ≠ "pyproject.toml" := by
  unfold Path.suffix Path.name at text
  cases last : file.parts.getLast? with
  | none =>
    rw [last] at text
    revert text
    decide +kernel
  | some name =>
    rw [last] at text
    refine ⟨name,rfl,?_,?_⟩
    · rintro rfl
      revert text
      decide +kernel
    · rintro rfl
      revert text
      decide +kernel

theorem sourcesWith {places : List (List String)} {place : List String} {name : String} (sources : Sources places)
    (last : place.getLast? = some name) (other : name ≠ "pyproject.toml") : Sources (places ++ [place]) := by
  intro directory member
  rcases List.mem_append.mp member with before | here
  · exact sources directory before
  · rw [← List.mem_singleton.mp here,List.getLast?_concat] at last
    exact other (Option.some.inj last).symm

theorem rootForSame {places : List (List String)} {s s' : Session} (kept : Kept s s')
    (written : Overwritten places s.tree s'.tree) (sources : List String) : rootFor s' sources = rootFor s sources := by
  rw [rootFor,rootFor,kept.projectRoots,kept.cwd,projectRootSame written]

def ownSettings (source : Path) (requested : Value) : Run Settings := do
  match ← Formatter.settingsFile? source requested with
  | none => return []
  | some file => Formatter.readSettings file

theorem standsOwn (source : Path) (requested : Value) : Stands (ownSettings source requested) := by
  refine standsBind (withinSettingsFile calm source requested) (fun found => ?_)
  cases found with
  | none => exact standsPure _
  | some file => exact withinReadSettings calm file

theorem agreesOwn {places : List (List String)} {R : Session → Session → Prop} (sees : Sees places R) {requested : Value}
    (free : Free places requested) (source : Path) : Agrees R (ownSettings source requested) := by
  refine agreesBindWhere (agreesSettingsFile sees source requested)
    (fun tools s found t run => show ∀ file, found = some file → requested.truthy = false → ∃ root : Path,
      file = (root.join ⟨.relative,["pyproject.toml"]⟩).render from ?_) (fun found named => ?_)
  · rintro file rfl unasked
    exact settingsFileSource unasked run
  · cases found with
    | none => exact togetherPure rfl
    | some file =>
      refine agreesReadSettings sees (fun t cwd => ?_)
      rcases free with ⟨unasked,sources⟩ | none
      · obtain ⟨root,rfl⟩ := named file rfl unasked
        exact apartProjectFile sources root t cwd
      · subst none
        exact apartNothing t cwd _

theorem freshOwn (source : Path) (requested : Value) :
    Formatter.config.fresh source requested = (do
      let settings ← ownSettings source requested
      modify fun s => { s with formatterConfig := some ((source,requested),settings) }
      return settings) := by
  unfold Formatter.config.fresh ownSettings
  rw [bind_assoc]
  refine bind_congr (fun found => ?_)
  cases found <;> rfl

structure Beside (places : List (List String)) (a b : Session) : Prop where
  near : Near places a b
  verified : a.verified = b.verified
  formatterConfig : a.formatterConfig = b.formatterConfig

theorem besideSees (places : List (List String)) : Sees places (Beside places) where
  near h := h.near
  quiet h left right := ⟨(nearSees places).quiet h.near left right,by rw [left.verified,right.verified,h.verified],
    by rw [left.formatterConfig,right.formatterConfig,h.formatterConfig]⟩

theorem besideRecord {places : List (List String)} (e : Event) : Agrees (Beside places) (Run.record e) :=
  fun _ _ _ h => ⟨⟨⟨h.near.tree,h.near.cwd,h.near.roots⟩,h.verified,h.formatterConfig⟩,.ok rfl⟩

theorem besidePrint {places : List (List String)} (text text' : String) :
    Together (Beside places) Eq (Run.print text) (Run.print text') :=
  fun _ _ _ h => ⟨⟨⟨h.near.tree,h.near.cwd,h.near.roots⟩,h.verified,h.formatterConfig⟩,.ok rfl⟩

theorem besideKeep {places : List (List String)} (kept : (Path × Value) × Settings) :
    Agrees (Beside places) (modify fun s => { s with formatterConfig := some kept } : Run PUnit) :=
  fun _ _ _ h => ⟨⟨⟨h.near.tree,h.near.cwd,h.near.roots⟩,h.verified,rfl⟩,.ok rfl⟩

theorem agreesConfig {places : List (List String)} {requested : Value} (free : Free places requested) (source : Path) :
    Agrees (Beside places) (Formatter.config source requested) := by
  have fresh : Agrees (Beside places) (Formatter.config.fresh source requested) := by
    rw [freshOwn]
    refine agreesBind (agreesOwn (besideSees places) free source) (fun _ => ?_)
    exact agreesBind (besideKeep _) (fun _ => togetherPure rfl)
  refine togetherAside (P := Eq) (fun _ => togetherFail _) (agreesGet (fun a b h => ?_))
  rw [h.formatterConfig]
  cases b.formatterConfig with
  | none => exact fresh
  | some kept =>
    obtain ⟨⟨p,v⟩,settings⟩ := kept
    dsimp only
    split
    · exact togetherPure rfl
    · exact fresh

def configIn (options : Settings) : Value := (options.lookup "config").getD .none

theorem freeErased {places : List (List String)} {options : Settings} (free : Free places (configIn options)) :
    Free places (configIn (options.erase "config")) := by
  rcases free with ⟨_,sources⟩ | none
  · refine .inl ⟨?_,sources⟩
    rw [configIn,Lookup.settingErased]
    rfl
  · exact .inr none

theorem agreesFormat {places : List (List String)} {options : Settings} (free : Free places (configIn options))
    (source : Path) (content : Document) : Agrees (Beside places) (Formatter.format source content options) := by
  refine agreesBind (agreesConfig free source) (fun settings => agreesBind (besideKeep _) (fun _ => ?_))
  refine agreesBind (besideRecord _) (fun _ => agreesBind togetherRead (fun tools => ?_))
  split
  · exact togetherPure rfl
  · exact togetherFail _

theorem agreesSortImports {places : List (List String)} (content : Document) (source : Path) (requested lineLength : Value) :
    Agrees (Beside places) (Imports.sort content source requested lineLength) := by
  have settings : Agrees (Beside places) (Imports.settingsFor source requested lineLength) := by
    unfold Imports.settingsFor
    dsimp only
    split
    · exact agreesBind (togetherPure rfl) (fun _ => togetherPure rfl)
    · refine agreesBind (agreesProjectRoot (besideSees places) _) (fun _ => ?_)
      exact agreesBind (togetherPure rfl) (fun _ => togetherPure rfl)
  refine agreesBind settings (fun _ => agreesBind (agreesDebug (besideSees places) _ _) (fun _ => ?_))
  refine agreesBind togetherRead (fun tools => ?_)
  split
  · exact togetherFail _
  · refine agreesBind (besideRecord _) (fun _ => ?_)
    split
    · exact togetherPure rfl
    · exact togetherFail _

theorem agreesObjection {places : List (List String)} (edited result : Document) (chunks : List Chunk) (lines : List Int) :
    Agrees (Beside places) (objectionTo edited result chunks lines) := by
  refine agreesGet (fun a b h => ?_)
  have counted : Together (Beside places) Eq (set { a with verified := b.verified + 1 } : Run PUnit)
      (set { b with verified := b.verified + 1 } : Run PUnit) :=
    fun _ _ _ _ => ⟨⟨⟨h.near.tree,h.near.cwd,h.near.roots⟩,rfl,h.formatterConfig⟩,.ok rfl⟩
  rw [h.verified]
  refine togetherBind counted (fun _ _ _ => agreesBind togetherRead (fun tools => ?_))
  exact agreesBind (besideRecord _) (fun _ => togetherAside (fun _ => besidePrint _ _) (togetherPure rfl))

structure Echoing (places : List (List String)) (p q : String) (a b : Session) : Prop where
  beside : Beside places a b
  said : ∃ text, a.out = p ++ text ∧ b.out = q ++ text

theorem echoingAsks {places : List (List String)} {p q : String} {m : Run α} (asks : Asks m) (agrees : Agrees (Beside places) m) :
    Agrees (Echoing places p q) m := by
  intro tools a b echoing
  obtain ⟨beside,matched⟩ := agrees tools a b echoing.beside
  obtain ⟨text,left,right⟩ := echoing.said
  exact ⟨⟨beside,text,by rw [(asks tools a).1.out,left],by rw [(asks tools b).1.out,right]⟩,matched⟩

theorem echoingDebug {places : List (List String)} {p q : String} (channel : Channel) (message : String) :
    Agrees (Echoing places p q) (Run.debug channel message) :=
  echoingAsks (withinDebug undisturbed _ _) (agreesDebug (besideSees places) _ _)

theorem echoingObjection {places : List (List String)} {p q : String} (edited result : Document) (chunks : List Chunk)
    (lines : List Int) : Agrees (Echoing places p q) (objectionTo edited result chunks lines) := by
  intro tools a b echoing
  obtain ⟨beside,matched⟩ := agreesObjection edited result chunks lines tools a b echoing.beside
  obtain ⟨text,left,right⟩ := echoing.said
  obtain ⟨c,run,_,_,_,out⟩ := execObjection edited result chunks lines tools a
  obtain ⟨d,run',_,_,_,out'⟩ := execObjection edited result chunks lines tools b
  rw [run,run'] at beside matched
  rw [run,run']
  rw [← echoing.beside.verified] at out'
  exact ⟨⟨beside,_,by rw [out,left,String.append_assoc],by rw [out',right,String.append_assoc]⟩,matched⟩

theorem agreesOpenJob {places : List (List String)} {root path : Path}
    (apart : ∀ t cwd, Apart places t cwd (root.join path)) (range : RevisionRange) (sorted : Bool) (options : Settings) :
    Agrees (Beside places) (openJob root range sorted options path) := by
  refine agreesBind (agreesReadText (besideSees places) apart) (fun text => ?_)
  dsimp only
  cases sorted with
  | false => exact agreesBind (togetherPure rfl) (fun _ => togetherPure rfl)
  | true => exact agreesBind (agreesSortImports _ _ _ _) (fun _ => togetherPure rfl)

section
variable {places : List (List String)} {p q : String} {root path : Path} (apart : ∀ t cwd, Apart places t cwd (root.join path))
include apart

theorem agreesAttempt {options : Settings} (free : Free places (configIn options)) {j : Job} (root' : j.root = root)
    (path' : j.path = path) (context : Nat) : Agrees (Echoing places p q) (j.attempt context options) := by
  subst root' path'
  have sees := besideSees places
  have debug (message : String) := @echoingDebug places p q .program message
  refine agreesBind (echoingAsks (withinEditedSince undisturbed _ _ _ _ _) (agreesEditedSince sees apart _ _ _)) (fun lines => ?_)
  split
  · exact agreesBind (debug _) (fun _ => togetherPure rfl)
  refine agreesBind (echoingAsks (asksFormat _ _ _) (agreesFormat free _ _)) (fun (formatted,left) => ?_)
  refine agreesBind (debug _) (fun _ => agreesBind (debug _) (fun _ => ?_))
  refine agreesBind (echoingAsks (withinDiffDocuments undisturbed _ _) (agreesDiffDocuments sees _ _)) (fun edits => ?_)
  refine agreesBind (agreesOfOption _ _) (fun chunks => ?_)
  refine agreesBind (echoingAsks (withinChoose undisturbed _ _) (agreesChoose sees _ _)) (fun chosen => ?_)
  refine agreesBind (debug _) (fun _ => agreesBind (echoingObjection _ _ _ _) (fun objection => ?_))
  cases objection <;> exact togetherPure rfl

theorem agreesAttempts {j : Job} (root' : j.root = root) (path' : j.path = path) (n context : Nat) {options : Settings}
    (free : Free places (configIn options)) : Agrees (Echoing places p q) (j.attempts n context options) := by
  induction n generalizing context options with
  | zero =>
    rw [Job.attempts]
    refine agreesBind (agreesAttempt apart free root' path' context) (fun found => ?_)
    obtain ⟨outcome,left⟩ := found
    cases outcome with
    | idle => exact togetherPure rfl
    | accepted => exact togetherPure rfl
    | objected => exact togetherFail _
  | succ n ih =>
    rw [Job.attempts]
    refine agreesBindWhere (agreesAttempt apart free root' path' context)
      (fun tools s found t run => show Free places (configIn found.2) from ?_) (fun found free' => ?_)
    · rcases attemptOptions run with ⟨_,same⟩ | ⟨_,same⟩
      · exact same ▸ free
      · exact same ▸ freeErased free
    · obtain ⟨outcome,left⟩ := found
      cases outcome with
      | idle => exact togetherPure rfl
      | accepted => exact togetherPure rfl
      | objected => exact agreesBind (echoingDebug _ _) (fun _ => ih _ free')

theorem agreesChange {options : Settings} (free : Free places (configIn options)) (range : RevisionRange) (sorted : Bool) :
    Agrees (Echoing places p q) (Changes.changeOf root range sorted options path) := by
  refine agreesBindWhere (echoingAsks (Course.asksOpenJob _ _ _ _ _) (agreesOpenJob apart range sorted options))
    (fun tools s job t run => show job.root = root ∧ job.path = path from ?_) (fun job placed => ?_)
  · have place := (Course.openJobOpened run).1.place
    exact ⟨place.1,place.2.2.1⟩
  refine agreesBind (agreesAttempts apart placed.1 placed.2 _ _ free) (fun (result,left) => ?_)
  cases result with
  | none => exact togetherPure rfl
  | some result =>
    dsimp only
    split
    · exact agreesBind (togetherPure rfl) (fun _ => togetherPure rfl)
    · exact togetherPure rfl

end

end Retouch.Parallel

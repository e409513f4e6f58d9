import Retouch.Proofs.Footprint
import Retouch.Proofs.Calling
import Retouch.Proofs.Dumping

/-! Which settings the calls of a run are made with. A configuration file that is requested serves the calls of the
sorter up to the first call of the formatter, and that call. The formatter takes the request out of the options it was
given, so every call after it is made as if nothing were requested. -/
namespace Retouch.Requested
open Execution Inquiry Candidates Listing Overwriting Stillness Planning Changes Footprint Parallel Calling

def IsFormat : Event → Bool
  | .format _ _ => true
  | _ => false

section
variable (tools : Tools) (base : Session) (setting : String → Value)

def Unformatted (told : List (Path × Event)) : Prop :=
  ∀ c ∈ told, Uses setting tools base (setting "config") c.1 c.2 ∧ IsFormat c.2 = false

def Formatted (told : List (Path × Event)) : Prop :=
  ∃ firsts file mode text laters, told = firsts ++ [(file,.format mode text)] ++ laters ∧
    Unformatted tools base setting firsts ∧ Uses setting tools base (setting "config") file (.format mode text) ∧
    ∀ c ∈ laters, Uses setting tools base .none c.1 c.2

def Told (told : List (Path × Event)) : Prop := Unformatted tools base setting told ∨ Formatted tools base setting told

def During (holds : List (Path × Event) → Prop) (earlier : List (Path × Event)) (file : Path) (s : Session) : Prop :=
  ∃ made, calls s = calls base ++ earlier.map Prod.snd ++ made ∧ holds (earlier ++ made.map (Prod.mk file))

structure Waiting (earlier : List (Path × Event)) (file : Path) (s : Session) : Prop where
  near : Near [] s base
  fresh : s.formatterConfig = none
  calls : During base (Unformatted tools base setting) earlier file s

/- Once the formatter was called, a configuration that was found around a source is kept as it was found at the start, up
to the options that are laid over it again. -/
structure Used (earlier : List (Path × Event)) (file : Path) (s : Session) : Prop where
  near : ∃ places, Near places s base ∧ Sources places
  kept : KeptAsFound tools base (left setting) s
  calls : During base (Formatted tools base setting) earlier file s

def Spent (earlier : List (Path × Event)) (file : Path) (given : Settings) (s : Session) : Prop :=
  given = left setting ∧ Used tools base setting earlier file s

/- How far the calls have come is told by the options that are left. -/
def Tracked (earlier : List (Path × Event)) (file : Path) (given : Settings) (s : Session) : Prop :=
  (given = options setting ∧ Waiting tools base setting earlier file s) ∨ Spent tools base setting earlier file given s

structure Ongoing (taken : List Turn) (given : Settings) (s : Session) : Prop where
  called : calls s = calls base ++ taken.flatMap Turn.made
  tracked : ∀ file, Tracked tools base setting (callsIn taken) file given s

structure Over (taken : List Turn) (s : Session) : Prop where
  called : calls s = calls base ++ taken.flatMap Turn.made
  told : Told tools base setting (callsIn taken)

end

section
variable {tools : Tools} {base : Session} {setting : String → Value} {earlier : List (Path × Event)} {file : Path}

theorem unformattedSort {told : List (Path × Event)} {c : Path × Event} (before : Unformatted tools base setting told)
    (served : Uses setting tools base (setting "config") c.1 c.2) (other : IsFormat c.2 = false) :
    Unformatted tools base setting (told ++ [c]) :=
  List.forall_mem_append.mpr ⟨before,List.forall_mem_singleton.mpr ⟨served,other⟩⟩

theorem unformattedFormat {told : List (Path × Event)} {file : Path} {mode : FormatMode} {text : String}
    (before : Unformatted tools base setting told)
    (served : Uses setting tools base (setting "config") file (.format mode text)) :
    Formatted tools base setting (told ++ [(file,.format mode text)]) :=
  ⟨told,file,mode,text,[],by rw [List.append_nil],before,served,by simp⟩

theorem formattedCall {told : List (Path × Event)} {c : Path × Event} (before : Formatted tools base setting told)
    (served : Uses setting tools base .none c.1 c.2) : Formatted tools base setting (told ++ [c]) := by
  obtain ⟨firsts,file,mode,text,laters,rfl,each,once,found⟩ := before
  exact ⟨firsts,file,mode,text,laters ++ [c],List.append_assoc .. ,each,once,
    List.forall_mem_append.mpr ⟨found,List.forall_mem_singleton.mpr served⟩⟩

theorem duringMono {holds holds' : List (Path × Event) → Prop} {s : Session}
    (wider : ∀ told, holds told → holds' told) (h : During base holds earlier file s) : During base holds' earlier file s := by
  obtain ⟨made,called,told⟩ := h
  exact ⟨made,called,wider _ told⟩

theorem duringSame {holds : List (Path × Event) → Prop} {s t : Session}
    (h : During base holds earlier file s) (same : calls t = calls s) : During base holds earlier file t := by
  obtain ⟨made,called,told⟩ := h
  exact ⟨made,same.trans called,told⟩

theorem duringCall {holds holds' : List (Path × Event) → Prop} {s t : Session}
    {e : Event} (h : During base holds earlier file s) (called : calls t = calls s ++ [e])
    (more : ∀ told, holds told → holds' (told ++ [(file,e)])) : During base holds' earlier file t := by
  obtain ⟨made,before,told⟩ := h
  exact ⟨made ++ [e],by rw [called,before,List.append_assoc],by simpa using more _ told⟩

theorem waitingSilent {s t : Session}
    (h : Waiting tools base setting earlier file s) (silent : Silent s t) : Waiting tools base setting earlier file t :=
  ⟨nearQuiet h.near silent.1,silent.2.trans h.fresh,duringSame h.calls silent.1.calls⟩

theorem usedUnobtrusive {s t : Session}
    (h : Used tools base setting earlier file s) (unobtrusive : Unobtrusive s t) : Used tools base setting earlier file t := by
  obtain ⟨places,near,apart⟩ := h.near
  obtain ⟨places',near',apart'⟩ := unobtrusive.near
  refine ⟨⟨places ++ places',nearTrans near near',sourcesAppend apart apart'⟩,fun p own entry => ?_,
    duringSame h.calls unobtrusive.calls⟩
  exact h.kept p own (unobtrusive.formatterConfig.symm.trans entry)

theorem usedSilent {s t : Session}
    (h : Used tools base setting earlier file s) (silent : Silent s t) : Used tools base setting earlier file t :=
  usedUnobtrusive h (silentUnobtrusive silent)

theorem trackedTold {given : Settings} {s : Session}
    (h : Tracked tools base setting earlier file given s) : During base (Told tools base setting) earlier file s := by
  rcases h with ⟨_,waiting⟩ | ⟨_,used⟩
  · exact duringMono (fun _ => .inl) waiting.calls
  · exact duringMono (fun _ => .inr) used.calls

theorem trackedSilent {given : Settings} {s t : Session}
    (h : Tracked tools base setting earlier file given s) (silent : Silent s t) :
    Tracked tools base setting earlier file given t :=
  h.imp (fun w => ⟨w.1,waitingSilent w.2 silent⟩) (fun w => ⟨w.1,usedSilent w.2 silent⟩)

theorem trackedNear {given : Settings} {s : Session}
    (tracked : Tracked tools base setting earlier file given s) :
    ∃ places, Near places s base ∧ Free places (configIn given) ∧ Sources places := by
  rcases tracked with ⟨_,waiting⟩ | ⟨rfl,used⟩
  · exact ⟨[],waiting.near,.inr rfl,fun _ member => by cases member⟩
  · obtain ⟨places,near,apart⟩ := used.near
    exact ⟨places,near,.inl ⟨by rw [configLeft]; rfl,apart⟩,apart⟩

theorem keptTracked {given : Settings} {s : Session}
    (tracked : Tracked tools base setting earlier file given s) {source : Path} {v : Value} {own : Settings}
    (kept : s.formatterConfig = some ((source,v),own)) (alike : v.alike (configIn given) = true) :
    AsFound tools base (left setting) source (configIn given) own := by
  rcases tracked with ⟨_,waiting⟩ | ⟨rfl,used⟩
  · rw [waiting.fresh] at kept
    cases kept
  · rw [configLeft] at alike ⊢
    cases Lookup.alikeNone alike
    exact used.kept source own kept

theorem erasedTracked {given : Settings} {s : Session}
    (tracked : Tracked tools base setting earlier file given s) : given.erase "config" = left setting := by
  rcases tracked with ⟨rfl,_⟩ | ⟨rfl,_⟩
  · rfl
  · exact leftErased setting

theorem ensuresFormat (earlier : List (Path × Event)) (file : Path) (content : Document) (given : Settings) :
    Ensures tools (Tracked tools base setting earlier file given) (fun x => Spent tools base setting earlier file x.2)
      (During base (Told tools base setting) earlier file) (Formatter.format file content given) := by
  intro s tracked r t run
  obtain ⟨places,near,free,apart⟩ := trackedNear tracked
  rcases formatFound near free (erasedTracked tracked) (fun _ _ => keptTracked tracked) run with
    ⟨f,rfl,calm⟩ | ⟨found,stands,near',kept,called,rest⟩
  · exact ⟨by simp,fun _ _ => trackedTold (trackedSilent tracked (calmSilent calm))⟩
  rw [modeLaid] at called
  have used : Used tools base setting earlier file t := by
    refine ⟨⟨places,near',apart⟩,kept,?_⟩
    rcases tracked with ⟨rfl,waiting⟩ | ⟨rfl,used⟩
    · refine duringCall waiting.calls called (fun told before => unformattedFormat before ⟨found,?_,rfl⟩)
      rw [configOptions] at stands
      cases asked : (setting "config").truthy with
      | true => simpa [asked] using stands
      | false =>
        rw [ownUnrequested asked]
        simpa [asked] using stands
    · rw [configLeft] at stands
      exact duringCall used.calls called (fun told before => formattedCall before ⟨found,stands,rfl⟩)
  exact ⟨fun x done => ⟨rest x done,used⟩,fun _ _ => duringMono (fun _ => .inr) used.calls⟩

theorem ensuresSort (earlier : List (Path × Event)) (file : Path) (content : Document) (given : Settings) :
    Ensures tools (Tracked tools base setting earlier file given) (fun _ => Tracked tools base setting earlier file given)
      (During base (Told tools base setting) earlier file)
      (Imports.sort content file (configIn given) ((given.lookup "line_length").getD .none)) := by
  intro s tracked r t run
  have after : Tracked tools base setting earlier file given t := by
    rcases sortCases run with calm | ⟨u,calm,rfl⟩
    · exact trackedSilent tracked (calmSilent calm)
    have pushed (settings : Settings) :
        calls { u with events := u.events.push (.sortImports settings content.text) } =
          calls s ++ [.sortImports settings content.text] := by
      rw [callsPushed u u.formatterConfig rfl,calm.calls]
    rcases tracked with ⟨rfl,waiting⟩ | ⟨rfl,used⟩
    · have near := nearQuiet waiting.near (calmQuiet calm)
      refine .inl ⟨rfl,⟨near.tree,near.cwd,near.roots⟩,calm.formatterConfig.trans waiting.fresh,?_⟩
      rw [sorterNear waiting.near,sorterOptions]
      exact duringCall waiting.calls (pushed _) (fun told before => unformattedSort before rfl rfl)
    · obtain ⟨places,near,apart⟩ := used.near
      have near' := nearQuiet near (calmQuiet calm)
      refine .inr ⟨rfl,⟨places,⟨near'.tree,near'.cwd,near'.roots⟩,apart⟩,?_,?_⟩
      · intro p own entry
        exact used.kept p own (calm.formatterConfig.symm.trans entry)
      · rw [sorterNear near,sorterLeft]
        exact duringCall used.calls (pushed _) (fun told before => formattedCall before rfl)
  exact ⟨fun _ _ => after,fun _ _ => trackedTold after⟩

theorem trackedPhases (earlier : List (Path × Event)) (file : Path) :
    Phases tools file (Tracked tools base setting earlier file) (Spent tools base setting earlier file)
      (During base (Told tools base setting) earlier file) where
  silent := trackedSilent
  unobtrusive spent unobtrusive := ⟨spent.1,usedUnobtrusive spent.2 unobtrusive⟩
  wider := .inr
  fails := trackedTold
  formats := ensuresFormat earlier file
  sorts := ensuresSort earlier file

theorem duringOver {holds : List (Path × Event) → Prop} {taken : List Turn} {file : Path} {given : Settings} {s t : Session}
    (before : calls s = calls base ++ taken.flatMap Turn.made) (h : During base holds (callsIn taken) file t) :
    let taken' := taken ++ [⟨file,given,(calls t).drop (calls s).length⟩]
    calls t = calls base ++ taken'.flatMap Turn.made ∧ holds (callsIn taken') := by
  obtain ⟨made,called,told⟩ := h
  rw [callsInMade,← before] at called
  dsimp only
  rw [called,List.drop_left]
  exact ⟨by simp [before],by simpa [callsIn] using told⟩

theorem trackedOver {taken : List Turn} {file : Path} {given left : Settings} {s t : Session}
    (before : calls s = calls base ++ taken.flatMap Turn.made) (h : Tracked tools base setting (callsIn taken) file left t)
    (next : Path) :
    Tracked tools base setting (callsIn (taken ++ [⟨file,given,(calls t).drop (calls s).length⟩])) next left t := by
  have ended {holds : List (Path × Event) → Prop} (during : During base holds (callsIn taken) file t) :
      During base holds (callsIn (taken ++ [⟨file,given,(calls t).drop (calls s).length⟩])) next t := by
    obtain ⟨called,told⟩ := @duringOver base holds taken file given s t before during
    refine ⟨[],?_,by simpa using told⟩
    rw [callsInMade,List.append_nil]
    exact called
  exact h.imp (fun w => ⟨w.1,w.2.near,w.2.fresh,ended w.2.calls⟩) (fun w => ⟨w.1,w.2.near,w.2.kept,ended w.2.calls⟩)

theorem ongoingOver {taken : List Turn} {given : Settings} {s : Session} (ongoing : Ongoing tools base setting taken given s) :
    Over tools base setting taken s := by
  obtain ⟨made,called,told⟩ := trackedTold (ongoing.tracked ⟨.root,[]⟩)
  rw [callsInMade,ongoing.called] at called
  obtain rfl : made = [] := by simpa using called
  exact ⟨ongoing.called,by simpa using told⟩

theorem fileTold {root path : Path} (text : (root.join path).suffix = ".py") {range : RevisionRange}
    {sorted diff check : Bool} {taken : List Turn} {progress : Progress Bool} {s t : Session}
    {r : Except Failure (Progress Bool)} (ongoing : Ongoing tools base setting taken progress.options s)
    (run : exec (reformatFile root range sorted (Program.sink diff check) progress path) tools s = (r,t)) :
    let taken' := taken ++ [⟨root.join path,progress.options,(calls t).drop (calls s).length⟩]
    (∀ next, r = .ok next → Ongoing tools base setting taken' next.options t) ∧
      ∀ f, r = .error f → Over tools base setting taken' t := by
  have file := ensuresFile (trackedPhases (callsIn taken) (root.join path)) (sinkConsiderate tools diff check) text range
    sorted progress s (ongoing.tracked (root.join path)) r t run
  refine ⟨fun next done => ?_,fun f failed => ?_⟩
  · have after := file.1 next done
    exact ⟨(duringOver ongoing.called (trackedTold after)).1,trackedOver ongoing.called after⟩
  · obtain ⟨called,told⟩ := duringOver ongoing.called (file.2 f failed)
    exact ⟨called,told⟩

theorem turnsTold {root : Path} {files : List Path} (texts : ∀ p ∈ files, (root.join p).suffix = ".py")
    {range : RevisionRange} {sorted diff check : Bool} {progress : Progress Bool} {s u : Session}
    {r : Except Failure (Progress Bool)} (start : Ongoing tools base setting [] progress.options s)
    (run : exec (files.foldlM (reformatFile root range sorted (Program.sink diff check)) progress) tools s = (r,u)) :
    Over tools base setting (turns root range sorted (Program.sink diff check) tools files progress s) u := by
  have lead := turnsLead (fun path member _ _ _ _ _ ongoing visited => fileTold (texts path member) ongoing visited) start run
  cases r with
  | error f => exact lead.2 f rfl
  | ok last => exact ongoingOver (lead.1 last rfl)

end

def listedSources (name : String) (args : List String) (tools : Tools) (s : Session) : List Path :=
  match exec (Program.prepare name args) tools s with
  | (.error _,_) => []
  | (.ok plan,t) =>
    match exec (listing plan.paths plan.range) tools t with
    | (.error _,_) => []
    | (.ok (root,files),_) => files.map root.join

def runTurns (name : String) (args : List String) (tools : Tools) (s : Session) : List Turn :=
  match exec (Program.prepare name args) tools s with
  | (.error _,_) => []
  | (.ok plan,t) => turnsFor plan.paths plan.range plan.sorted plan.options (Program.sink plan.diff plan.check) false tools t

structure ServedInTurn (tools : Tools) (s : Session) (setting : String → Value) (firsts laters : List (Path × Event)) :
    Prop where
  requested : ∀ c ∈ firsts, Uses setting tools s (setting "config") c.1 c.2
  once : ∀ c ∈ firsts.dropLast, IsFormat c.2 = false
  ended : laters ≠ [] → ∃ file mode text, firsts.getLast? = some (file,.format mode text)
  found : ∀ c ∈ laters, Uses setting tools s .none c.1 c.2

theorem toldInTurn {tools : Tools} {base : Session} {setting : String → Value} {told : List (Path × Event)}
    (h : Told tools base setting told) :
    ∃ firsts laters, told = firsts ++ laters ∧ ServedInTurn tools base setting firsts laters := by
  rcases h with served | ⟨firsts,file,mode,text,laters,rfl,served,once,found⟩
  · refine ⟨told,[],(List.append_nil _).symm,fun c member => (served c member).1,fun c member => ?_,by simp,by simp⟩
    exact (served c (List.mem_of_mem_dropLast member)).2
  · refine ⟨firsts ++ [(file,.format mode text)],laters,rfl,?_,fun c member => ?_,fun _ => ⟨file,mode,text,by simp⟩,found⟩
    · exact List.forall_mem_append.mpr ⟨fun c inside => (served c inside).1,List.forall_mem_singleton.mpr once⟩
    · rw [List.dropLast_concat] at member
      exact (served c member).2

theorem runTold (name : String) {args : List String} {tools : Tools} {s t : Session} {r : Config.Reading}
    (fresh : s.formatterConfig = none) (read : exec (Config.read args) tools s = (.ok r,t)) :
    (runTurns name args tools s).map Turn.file <+: listedSources name args tools s ∧
    calls (exec (Program.run name args) tools s).2 = calls s ++ (runTurns name args tools s).flatMap Turn.made ∧
    Told tools s (settingIn r) (callsIn (runTurns name args tools s)) := by
  rcases run : exec (Program.run name args) tools s with ⟨e,u⟩
  rcases runCases run with ⟨f,rfl,calm,_,unlisted⟩ | ⟨plan,t',root,files,v,visited,w,prepared,listed,calm,_,folded,ending⟩
  · have none : runTurns name args tools s = [] := by
      rw [runTurns]
      rcases prepared : exec (Program.prepare name args) tools s with ⟨e | plan,t'⟩
      · rfl
      dsimp only
      rw [turnsFor]
      rcases listed : exec (listing plan.paths plan.range) tools t' with ⟨e | ⟨root,files⟩,v⟩
      · rfl
      · exact absurd listed (unlisted plan t' root files v prepared)
    rw [none]
    exact ⟨List.nil_prefix,by simpa using calm.calls,.inl (by simp [Unformatted,callsIn])⟩
  obtain ⟨r',_,again,follows⟩ := prepareFollows prepared
  cases read.symm.trans again
  have sources : listedSources name args tools s = files.map root.join := by
    rw [listedSources,prepared]
    dsimp only
    rw [listed]
  have taken : runTurns name args tools s = turns root plan.range plan.sorted (Program.sink plan.diff plan.check) tools files
      ⟨false,plan.options⟩ v := by
    rw [runTurns,prepared]
    dsimp only
    rw [turnsFor,listed]
  have start : Ongoing tools s (settingIn r) [] plan.options v := by
    have called : calls v = calls s ++ [] := by simpa using calm.calls
    refine ⟨called,fun file => .inl ⟨follows.options,?_,calm.formatterConfig.trans fresh,[],?_,?_⟩⟩
    · exact nearQuiet ⟨overwrittenRefl _ _,rfl,fun _ => rfl⟩ (calmQuiet calm)
    · simpa [callsIn] using called
    · simp [Unformatted,callsIn]
  obtain ⟨called,told⟩ := turnsTold (fun p inside => (listedFile listed inside).1) start folded
  rw [sources,taken]
  refine ⟨turnsListed files _ v,?_,told⟩
  rcases ending with ⟨f,rfl,rfl,rfl⟩ | ⟨progress,rfl,concluded⟩
  · exact called
  · exact (withinEnds (standsConclude _ _ _ _) concluded).calls.trans called

theorem requestServesFirstFormat (name : String) (args : List String) (tools : Tools) (s t : Session) (r : Config.Reading)
    (fresh : s.formatterConfig = none) (read : exec (Config.read args) tools s = (.ok r,t)) :
    (runTurns name args tools s).map Turn.file <+: listedSources name args tools s ∧
    calls (exec (Program.run name args) tools s).2 = calls s ++ (runTurns name args tools s).flatMap Turn.made ∧
    ∃ firsts laters, callsIn (runTurns name args tools s) = firsts ++ laters ∧
      ServedInTurn tools s (settingIn r) firsts laters := by
  obtain ⟨listed,called,told⟩ := runTold name fresh read
  exact ⟨listed,called,toldInTurn told⟩

def requestTools : Tools where
  git args := match args with
    | "diff" :: _ => ⟨"a.py\nb.py\n".toUTF8,0⟩
    | _ => ⟨"".toUTF8,0⟩
  format _ text := .ok text
  sortImports := none
  objection _ _ _ := none
  lint _ _ := "".toUTF8
  environment := []
  terminal := ⟨80,false,none⟩

def requestSession : Session :=
  { Rewriting.returnSession with
    tree := ⟨[(["r"],.directory),(["r","a.py"],.file "".toUTF8 0),(["r","b.py"],.file "".toUTF8 0),
      (["r","black.cfg"],.file "[tool.black]\nline_length = 50\n".toUTF8 0)]⟩ }

def requestArgs : List String := ["--config","black.cfg","a.py","b.py"]

theorem requestServesInTurn :
    requestSession.formatterConfig = none ∧
    ∃ r t, exec (Config.read requestArgs) requestTools requestSession = (.ok r,t) ∧
    ∃ firsts laters, calls (exec (Program.run "darker" requestArgs) requestTools requestSession).2 =
        (firsts ++ laters).map Prod.snd ∧
      ServedInTurn requestTools requestSession (settingIn r) firsts laters := by
  obtain ⟨r,read,_⟩ := @execOkPart _ _ (Config.read requestArgs) (fun _ => ()) requestTools requestSession ()
    (by decide +kernel)
  obtain ⟨_,called,firsts,laters,made,served⟩ :=
    requestServesFirstFormat "darker" requestArgs requestTools requestSession _ r rfl read
  have uncalled : calls requestSession = [] := rfl
  rw [uncalled,List.nil_append,← callsInMade,made] at called
  exact ⟨rfl,r,_,read,firsts,laters,called,served⟩

theorem plainLength : Formatter.plainKey "line_length" = "line_length" := by
  have undashed (sep : String) (dashed : String.Pos.Raw.get sep 0 = '-') (filled : sep ≠ "") :
      "line_length".splitOn sep = ["line_length"] := by
    refine Dumping.splitWhole filled 11 ?_ (by decide +kernel) (by decide +kernel)
    rw [dashed]
    decide +kernel
  unfold Formatter.plainKey Formatter.replaceAll
  rw [undashed "--" (by decide +kernel) (by decide)]
  change "_".intercalate ("line_length".splitOn "-") = _
  rw [undashed "-" (by decide +kernel) (by decide)]
  rfl

theorem lengthRead {file text : String} {tools : Tools} {s : Session} {modified n : Int}
    (read : s.tree.read s.cwd (Path.ofString file) = .ok (text.toUTF8,modified))
    (parsed : Toml.parse? ⟨false⟩ text = some [("tool",.table [("black",.table [("line_length",.int n)])])]) :
    (exec (Formatter.readSettings file) tools s).1 = .ok [("line_length",.int n)] := by
  have settled : Formatter.settingsOf? [("tool",.table [("black",.table [("line_length",.int n)])])] =
      some [("line_length",.int n)] := by
    change some (Settings.put [] (Formatter.plainKey "line_length") (.int n)) = _
    rw [plainLength]
    rfl
  have some {α : Type} (f : Failure) (x : α) : exec (Run.ofOption f (some x)) tools s = (.ok x,s) := rfl
  rw [Formatter.readSettings,execBindOk (execGet _ _),read]
  dsimp only
  rw [Run.decode,textDecoded,execBindOk (some _ _),parsed,execBindOk (some _ _),settled,execBindOk (some _ _)]
  rfl

theorem requestRead :
    (exec (Formatter.readSettings "black.cfg") requestTools requestSession).1 = .ok [("line_length",.int 50)] :=
  lengthRead (show requestSession.tree.read requestSession.cwd (Path.ofString "black.cfg") =
    .ok ("[tool.black]\nline_length = 50\n".toUTF8,0) by cbv) (by cbv)

theorem textHeld {v : Value} {text : String} (held : v.text? = some text) : v = .text text := by
  cases v <;> simp_all [Value.text?]

def requestPaths : List Path := [⟨.relative,["a.py"]⟩,⟨.relative,["b.py"]⟩]

def requestRange : RevisionRange := ⟨"HEAD",.workingTree,false⟩

theorem requestListed {s root files t} (still : Still requestSession s)
    (run : exec (listing requestPaths requestRange) requestTools s = (.ok (root,files),t)) :
    root = ⟨.root,["r"]⟩ ∧ files = requestPaths := by
  refine listedAs "a.py\nb.py\n" run ?_ (fun args => ?_) (fun args => ?_) ?_ (by decide +kernel)
  · rw [still.tree,still.cwd]
    decide +kernel
  · change String.fromUTF8? "a.py\nb.py\n".toUTF8 = _
    decide +kernel
  · change String.fromUTF8? "".toUTF8 = _
    decide +kernel
  · rw [still.tree,still.cwd]
    decide +kernel

theorem requestPlanned : ∃ linters, exec (Program.prepare "darker" requestArgs) requestTools requestSession =
    (.ok ⟨requestPaths,requestRange,false,false,false,linters,[("config",.text "black.cfg")]⟩,
      (exec (Program.prepare "darker" requestArgs) requestTools requestSession).2) := by
  obtain ⟨⟨_,_,_,_,_,linters,given⟩,prepared,fields⟩ := @execOkPart _ _ (Program.prepare "darker" requestArgs)
    (fun p => (p.paths,p.range,p.sorted,p.check,p.diff)) requestTools requestSession
    (requestPaths,requestRange,false,false,false) (by decide +kernel)
  obtain ⟨plan,again,options⟩ := @execOkPart _ _ (Program.prepare "darker" requestArgs)
    (fun p => p.options.map (fun e => (e.1,e.2.text?))) requestTools requestSession [("config",some "black.cfg")]
    (by decide +kernel)
  simp only [Prod.mk.injEq] at fields
  obtain ⟨rfl,rfl,rfl,rfl,rfl⟩ := fields
  obtain rfl := Except.ok.inj (Prod.mk.inj (again.symm.trans prepared)).1
  refine ⟨linters,?_⟩
  obtain ⟨entry,rest,rfl,named,last⟩ := List.map_eq_cons_iff.mp options
  obtain rfl := List.map_eq_nil_iff.mp last
  obtain ⟨key,v⟩ := entry
  simp only [Prod.mk.injEq] at named
  obtain ⟨rfl,text⟩ := named
  rw [textHeld text] at prepared
  exact prepared

theorem requestListing : exec (listing requestPaths requestRange) requestTools
    (exec (Program.prepare "darker" requestArgs) requestTools requestSession).2 =
      (.ok (⟨.root,["r"]⟩,requestPaths),(exec (listing requestPaths requestRange) requestTools
        (exec (Program.prepare "darker" requestArgs) requestTools requestSession).2).2) := by
  obtain ⟨linters,prepared⟩ := requestPlanned
  obtain ⟨⟨root,files⟩,listed,_⟩ := @execOkPart _ _ (listing requestPaths requestRange) (fun _ => ()) requestTools
    (exec (Program.prepare "darker" requestArgs) requestTools requestSession).2 () (by decide +kernel)
  obtain ⟨rfl,rfl⟩ := requestListed (calmStill (withinEnds (standsPrepare _ _) prepared)) listed
  exact listed

theorem requestFormats :
    (calls (exec (Program.run "darker" requestArgs) requestTools requestSession).2).map IsFormat = [true,true] := by
  obtain ⟨linters,prepared⟩ := requestPlanned
  have listed := requestListing
  rw [runStages,execBindOk prepared,execBindOk listed]
  have formats : (calls (exec (requestPaths.foldlM
      (reformatFile ⟨.root,["r"]⟩ requestRange false (Program.sink false false)) ⟨false,[("config",.text "black.cfg")]⟩)
      requestTools (exec (listing requestPaths requestRange) requestTools
        (exec (Program.prepare "darker" requestArgs) requestTools requestSession).2).2).2).map IsFormat = [true,true] := by
    decide +kernel
  dsimp only
  rcases folded : exec (requestPaths.foldlM
      (reformatFile ⟨.root,["r"]⟩ requestRange false (Program.sink false false)) ⟨false,[("config",.text "black.cfg")]⟩)
      requestTools (exec (listing requestPaths requestRange) requestTools
        (exec (Program.prepare "darker" requestArgs) requestTools requestSession).2).2 with ⟨visited,w⟩
  rw [folded] at formats
  cases visited with
  | error f =>
    rw [execBindError folded]
    exact formats
  | ok progress =>
    rw [execBindOk folded,(standsConclude _ _ _ _ requestTools w).1.calls]
    exact formats

theorem requestUnfound {source : Path} (listed : source ∈ listedSources "darker" requestArgs requestTools requestSession) :
    (exec (ownSettings source .none) requestTools requestSession).1 = .ok [] := by
  obtain ⟨linters,prepared⟩ := requestPlanned
  have sources : listedSources "darker" requestArgs requestTools requestSession =
      [⟨.root,["r","a.py"]⟩,⟨.root,["r","b.py"]⟩] := by
    rw [listedSources,prepared]
    dsimp only
    rw [requestListing]
    rfl
  have bare {source : Path} (none : (exec (ownSettings source .none) requestTools requestSession).1.toOption.map
      List.isEmpty = some true) : (exec (ownSettings source .none) requestTools requestSession).1 = .ok [] := by
    obtain ⟨own,found,empty⟩ := execOkPart none
    rw [found,List.isEmpty_iff.mp empty]
  rw [sources] at listed
  rcases List.mem_cons.mp listed with rfl | last
  · exact bare (by decide +kernel)
  · rw [List.mem_singleton.mp last]
    exact bare (by decide +kernel)

/- The file asks for 50 columns, and the first of the two calls has them; the second goes by the 88 of no file. -/
theorem laterCallForgetsRequest :
    (exec (Formatter.readSettings "black.cfg") requestTools requestSession).1 = .ok [("line_length",.int 50)] ∧
    ∃ first second text text', calls (exec (Program.run "darker" requestArgs) requestTools requestSession).2 =
      [.format first text,.format second text'] ∧ first.lineLength = .int 50 ∧ second.lineLength = .int 88 := by
  refine ⟨requestRead,?_⟩
  obtain ⟨r,read,parts⟩ := @execOkPart _ _ (Config.read requestArgs)
    (fun r => ((settingIn r "config").text?,(settingIn r "line_length").truthy)) requestTools requestSession
    (some "black.cfg",false) (by decide +kernel)
  obtain ⟨named,unset⟩ := Prod.mk.inj parts
  have formats := requestFormats
  obtain ⟨files,called,told⟩ := runTold "darker" rfl read
  have uncalled : calls requestSession = [] := rfl
  rw [uncalled,List.nil_append,← callsInMade] at called
  rw [called,List.map_map] at formats
  rcases told with served | ⟨firsts,file,first,text,laters,made,served,once,found⟩
  · obtain ⟨c,rest,made,asked,_⟩ := List.map_eq_cons_iff.mp formats
    exact absurd asked (by simp [(served c (by simp [made])).2])
  · rw [made,List.map_append,List.map_append,List.map_singleton,List.append_assoc] at formats
    cases firsts with
    | cons c rest =>
      have asked : IsFormat c.2 = true := (List.cons.inj formats).1
      exact absurd asked (by simp [(served c (by simp)).2])
    | nil =>
      obtain ⟨⟨other,e⟩,rest,rfl,asked,none⟩ := List.map_eq_cons_iff.mp (List.cons.inj formats).2
      obtain rfl := List.map_eq_nil_iff.mp none
      cases e with
      | format second text' =>
        obtain ⟨own,asks,rfl⟩ := once
        obtain ⟨own',finds,rfl⟩ := found (other,.format second text') (by simp)
        have last : (other,Event.format (modeWith (settingIn r) own') text') ∈
            callsIn (runTurns "darker" requestArgs requestTools requestSession) := by
          rw [made]
          simp
        have listed := files.subset (callsInFile last)
        rw [textHeld named,ownRequested (by decide),requestRead] at asks
        rw [requestUnfound listed] at finds
        cases asks
        cases finds
        refine ⟨_,_,text,text',called.trans (by rw [made]; rfl),?_,?_⟩ <;> rw [modeWith,unset] <;> rfl
      | _ => cases asked

end Retouch.Requested

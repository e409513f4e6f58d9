import Retouch.Proofs.Planning
import Retouch.Proofs.Spelling

/-! What a command line says. Each word that spells an option may give several, the last of them with an argument that
stands behind it or in the next word. Words that spell none are paths, as long as they stand together. The reader follows
exactly the lines that are built so, and does what their options say in order. -/
namespace Retouch.CommandLine
open Execution Options Spelling
open String (ofList)

abbrev Act := OptionSpec × String

inductive Joined (names : List (String × OptionSpec)) : OptionSpec → List Char → List Act → Option OptionSpec → Prop where
  | flag {o} (bare : o.effect.takesArgument = false) : Joined names o [] [(o,"")] none
  | waiting {o} (takes : o.effect.takesArgument = true) : Joined names o [] [] (some o)
  | argument {o c rest} (takes : o.effect.takesArgument = true) : Joined names o (c :: rest) [(o,ofList (c :: rest))] none
  | letter {o next c rest acts waiting} (bare : o.effect.takesArgument = false)
      (named : names.lookup (ofList ['-',c]) = some next) (later : Joined names next rest acts waiting) :
      Joined names o (c :: rest) ((o,"") :: acts) waiting

inductive Group (names : List (String × OptionSpec)) (arg : String) : List Act → Option OptionSpec → Prop where
  | plain {o name acts waiting} (spells : Spells names arg o name none) (joined : Joined names o [] acts waiting) :
      Group names arg acts waiting
  | attached {o name value} (spells : Spells names arg o name (some value)) (takes : o.effect.takesArgument = true) :
      Group names arg [(o,value)] none
  | joined {o name letters acts waiting} (spells : Spells names arg o name (some letters))
      (bare : o.effect.takesArgument = false) (short : name.startsWith "--" = false) (filled : letters ≠ "")
      (joined : Joined names o letters.toList acts waiting) : Group names arg acts waiting

inductive Phase where
  | before
  | inside
  | after

def Phase.next : Phase → Phase
  | before => before
  | _ => after

inductive Line (names : List (String × OptionSpec)) : Phase → List String → List Act → List String → Prop where
  | done {phase} : Line names phase [] [] []
  | option {phase arg acts rest more paths} (group : Group names arg acts none)
      (later : Line names phase.next rest more paths) : Line names phase (arg :: rest) (acts ++ more) paths
  | argument {phase arg acts o value rest more paths} (group : Group names arg acts (some o)) (word : Word names value)
      (later : Line names phase.next rest more paths) : Line names phase (arg :: value :: rest) (acts ++ (o,value) :: more) paths
  | path {phase arg rest acts paths} (early : phase ≠ .after) (word : Word names arg)
      (later : Line names .inside rest acts paths) : Line names phase (arg :: rest) acts (arg :: paths)
  | mark {phase rest} (early : phase ≠ .after) : Line names phase (separatorText :: rest) [] rest

def Named (names : List (String × OptionSpec)) (o : OptionSpec) : Prop := ∃ name, (name,o) ∈ names

section
variable {names : List (String × OptionSpec)}

theorem namedFound {name : String} {o : OptionSpec} (found : names.lookup name = some o) : Named names o := by
  obtain ⟨before,after,rfl,_⟩ := List.lookup_eq_some_iff.mp found
  exact ⟨name,by simp⟩

theorem spellsNamed {arg : String} {o : OptionSpec} {name : String} {attached : Option String}
    (spells : Spells names arg o name attached) : Named names o := by
  cases spells with
  | name named => exact namedFound named
  | valued assigned named => exact namedFound named
  | cut unnamed long plain only => exact ⟨_,only.known⟩
  | cutValued assigned unnamed long only => exact ⟨_,only.known⟩
  | letter named whole apart => exact namedFound named

theorem joinedNamed {o : OptionSpec} {cs : List Char} {acts : List Act} {waiting : Option OptionSpec}
    (joined : Joined names o cs acts waiting) (known : Named names o) :
    (∀ a ∈ acts, Named names a.1) ∧ ∀ w ∈ waiting, Named names w := by
  induction joined with
  | flag bare => simpa using known
  | waiting takes => simpa using known
  | argument takes => simpa using known
  | letter bare named later ih =>
    obtain ⟨each,last⟩ := ih (namedFound named)
    exact ⟨List.forall_mem_cons.mpr ⟨known,each⟩,last⟩

theorem groupNamed {arg : String} {acts : List Act} {waiting : Option OptionSpec} (group : Group names arg acts waiting) :
    (∀ a ∈ acts, Named names a.1) ∧ ∀ w ∈ waiting, Named names w := by
  cases group with
  | plain spells joined => exact joinedNamed joined (spellsNamed spells)
  | attached spells takes => simpa using spellsNamed spells
  | joined spells bare short filled joined => exact joinedNamed joined (spellsNamed spells)

theorem lineNamed {phase : Phase} {args : List String} {acts : List Act} {paths : List String}
    (line : Line names phase args acts paths) : ∀ a ∈ acts, Named names a.1 := by
  induction line with
  | done => simp
  | option group later ih =>
    exact List.forall_mem_append.mpr ⟨(groupNamed group).1,ih⟩
  | argument group word later ih =>
    obtain ⟨each,last⟩ := groupNamed group
    exact List.forall_mem_append.mpr ⟨each,List.forall_mem_cons.mpr ⟨last _ rfl,ih⟩⟩
  | path early word later ih => exact ih
  | mark early => simp

end

def perform (settings : Settings) (acts : List Act) : Except Stop Settings :=
  acts.foldlM (fun settings a => act settings a.1 a.2) settings

def phaseOf : Words → Phase
  | .ahead => .before
  | .taking _ => .inside
  | .taken _ => .after

def collected : Words → List String
  | .ahead => []
  | .taking words => words.reverse
  | .taken words => words

theorem phaseClosed (words : Words) : phaseOf words.close = (phaseOf words).next := by cases words <;> rfl

theorem collectedClosed (words : Words) : collected words.close = collected words := by cases words <;> rfl

theorem sourcesClosed (s : State) : { s with words := s.words.close }.sources = collected s.words := by
  cases taken : s.words <;> simp [State.sources,Words.close,collected]

theorem performAppend (settings : Settings) (acts more : List Act) :
    perform settings (acts ++ more) = perform settings acts >>= fun left => perform left more :=
  List.foldlM_append ..

theorem actsPerformed (s : State) (acts : List Act) : s.acts acts = (perform s.settings acts).map
    (fun left => { s with settings := left, seen := (acts.map (fun a => a.1.key)).reverse ++ s.seen }) := by
  induction acts generalizing s with
  | nil => rfl
  | cons a acts ih =>
    obtain ⟨o,argument⟩ := a
    rw [State.acts,perform,List.foldlM_cons,List.foldlM_cons,List.map_cons,List.reverse_cons,List.append_assoc]
    dsimp only
    cases act s.settings o argument with
    | error stop => rfl
    | ok left => exact ih { s with settings := left,seen := o.key :: s.seen }

theorem actsRun {s : State} {acts : List Act} {left : Settings} (performed : perform s.settings acts = .ok left) :
    ∃ seen, s.acts acts = .ok { s with settings := left,seen } := by
  rw [actsPerformed,performed]
  exact ⟨_,rfl⟩

theorem actsDone {s u : State} {acts : List Act} (run : s.acts acts = .ok u) :
    perform s.settings acts = .ok u.settings ∧ u.words = s.words ∧ u.extra = s.extra := by
  rw [actsPerformed] at run
  cases performed : perform s.settings acts with
  | error stop =>
    rw [performed] at run
    cases run
  | ok left =>
    rw [performed] at run
    cases run
    exact ⟨rfl,rfl,rfl⟩

section
variable {g : Grammar}

theorem clusterJoined {o : OptionSpec} {cs : List Char} {acts : List Act} {waiting : Option OptionSpec} :
    cluster g o cs = .ok ⟨acts,waiting⟩ ↔ Joined g.names o cs acts waiting := by
  constructor
  · intro run
    induction cs generalizing o acts with
    | nil =>
      rw [cluster] at run
      cases takes : o.effect.takesArgument with
      | true =>
        rw [takes] at run
        cases run
        exact .waiting takes
      | false =>
        rw [takes] at run
        cases run
        exact .flag takes
    | cons c rest ih =>
      rw [cluster] at run
      split at run
      · cases run
        exact .argument (by assumption)
      · rename_i bare
        split at run
        · rename_i next named
          obtain ⟨later,inner,last⟩ := okBind run
          cases last
          exact .letter (by simpa using bare) named (ih inner)
        · cases run
  · intro joined
    induction joined with
    | flag bare => simp [cluster,bare]
    | waiting takes => simp [cluster,takes]
    | argument takes => rw [cluster,if_pos takes]
    | letter bare named later ih =>
      rw [cluster,if_neg (by simp [bare]),Grammar.find?,named]
      simp only [ih]
      rfl

theorem groupClustered {arg : String} {o : OptionSpec} {name : String} {attached : Option String} {acts : List Act}
    {waiting : Option OptionSpec} (spells : Spells g.names arg o name attached)
    (run : clusterOf g o name attached = .ok ⟨acts,waiting⟩) : Group g.names arg acts waiting := by
  unfold clusterOf at run
  split at run
  · exact .plain spells (clusterJoined.mp run)
  split at run
  · cases run
    exact .attached spells (by assumption)
  rename_i bare
  split at run
  · cases run
  · rename_i joins
    rw [Bool.or_eq_true,beq_iff_eq] at joins
    obtain ⟨short,filled⟩ := not_or.mp joins
    exact .joined spells (Bool.eq_false_iff.mpr bare) (Bool.eq_false_iff.mpr short) filled (clusterJoined.mp run)

theorem clusteredGroup {arg : String} {acts : List Act} {waiting : Option OptionSpec} (group : Group g.names arg acts waiting) :
    ∃ o name attached, Spells g.names arg o name attached ∧ clusterOf g o name attached = .ok ⟨acts,waiting⟩ := by
  cases group with
  | plain spells joined => exact ⟨_,_,_,spells,clusterJoined.mpr joined⟩
  | attached spells takes => exact ⟨_,_,_,spells,if_pos takes⟩
  | joined spells bare short filled joined =>
    refine ⟨_,_,_,spells,?_⟩
    rw [clusterOf,if_neg (by simp [bare]),if_neg (by simpa [short] using filled)]
    exact clusterJoined.mpr joined

theorem tokensCases {arg : String} {rest : List String} {toks : List Token} (run : tokens g (arg :: rest) = .ok toks) :
    arg = separatorText ∧ toks = .separator :: rest.map .word ∨
      ∃ token later, tokenOf g arg = .ok token ∧ tokens g rest = .ok later ∧ toks = token :: later := by
  rw [tokens] at run
  split at run
  · cases run
    exact .inl ⟨beq_iff_eq.mp ‹_›,rfl⟩
  · obtain ⟨token,first,run⟩ := okBind run
    obtain ⟨later,others,last⟩ := okBind run
    cases last
    exact .inr ⟨token,later,first,others,rfl⟩

theorem tokensNext {arg : String} {rest : List String} {token : Token} {later : List Token}
    (first : tokenOf g arg = .ok token) (others : tokens g rest = .ok later) :
    tokens g (arg :: rest) = .ok (token :: later) := by
  have apart : arg ≠ separatorText := by
    rintro rfl
    exact separatorUnread first
  rw [tokens,if_neg (by simpa using apart),first,others]
  rfl

theorem wordTaken {s : State} (early : phaseOf s.words ≠ .after) (text : String) :
    ∃ words, s.word text = { s with words } ∧ phaseOf words = .inside ∧ collected words = collected s.words ++ [text] := by
  obtain ⟨settings,words,extra,seen⟩ := s
  cases words with
  | ahead => exact ⟨.taking [text],rfl,rfl,rfl⟩
  | taking words => exact ⟨.taking (text :: words),rfl,rfl,by simp [collected]⟩
  | taken words => exact absurd rfl early

theorem markTaken {s : State} (early : phaseOf s.words ≠ .after) :
    ∃ words, s.separator = { s with words } ∧ phaseOf words = .inside ∧ collected words = collected s.words := by
  obtain ⟨settings,words,extra,seen⟩ := s
  cases words with
  | ahead => exact ⟨.taking [],rfl,rfl,rfl⟩
  | taking words => exact ⟨.taking words,rfl,rfl,rfl⟩
  | taken words => exact absurd rfl early

theorem wordsTaken {s : State} (early : phaseOf s.words ≠ .after) (rest : List String) :
    ∃ words, readTokens g s none (rest.map .word) = .ok { s with words } ∧
      { s with words }.sources = collected s.words ++ rest := by
  induction rest generalizing s with
  | nil => exact ⟨_,rfl,by rw [sourcesClosed,List.append_nil]⟩
  | cons text rest ih =>
    obtain ⟨words,taken,phase,more⟩ := wordTaken early text
    obtain ⟨last,run,sources⟩ := ih (s := { s with words }) (by simp [phase])
    refine ⟨last,?_,?_⟩
    · rw [List.map_cons,readTokens,taken,run]
    · rw [sources,more,List.append_assoc]
      rfl

theorem markRead {s : State} (early : phaseOf s.words ≠ .after) (rest : List String) :
    ∃ words, readTokens g s none (.separator :: rest.map .word) = .ok { s with words } ∧
      { s with words }.sources = collected s.words ++ rest := by
  obtain ⟨words,marked,phase,same⟩ := markTaken early
  obtain ⟨last,run,sources⟩ := wordsTaken (g := g) (s := { s with words }) (by simp [phase]) rest
  exact ⟨last,by rw [readTokens,marked,run],by rw [sources,same]⟩

/- The reader follows a line. The induction is on the line, and the state stands where the line does. -/
theorem lineRead {phase : Phase} {args : List String} {acts : List Act} {paths : List String}
    (line : Line g.names phase args acts paths) {s : State} {left : Settings} (stands : phaseOf s.words = phase)
    (performed : perform s.settings acts = .ok left) :
    ∃ toks s', tokens g args = .ok toks ∧ readTokens g s none toks = .ok s' ∧ s'.settings = left ∧ s'.extra = s.extra ∧
      s'.sources = collected s.words ++ paths := by
  induction line generalizing s with
  | done =>
    cases performed
    exact ⟨_,_,rfl,rfl,rfl,rfl,by rw [sourcesClosed,List.append_nil]⟩
  | @option phase arg acts rest more paths group later ih =>
    obtain ⟨o,name,attached,spells,clustered⟩ := clusteredGroup group
    rw [performAppend] at performed
    obtain ⟨middle,first,second⟩ := okBind performed
    obtain ⟨seen,acted⟩ := actsRun (s := { s with words := s.words.close }) first
    obtain ⟨toks,s',told,run,settled,extra,sources⟩ := ih (s := ⟨middle,s.words.close,s.extra,seen⟩)
      (by rw [phaseClosed,stands]) second
    refine ⟨_,s',tokensNext (tokenOfSpelled spells) told,?_,settled,extra,by rw [sources,collectedClosed]⟩
    rw [readTokens,clustered]
    exact (bindOk acted).trans run
  | @argument phase arg acts o value rest more paths group word later ih =>
    obtain ⟨first,name,attached,spells,clustered⟩ := clusteredGroup group
    rw [List.append_cons,performAppend] at performed
    obtain ⟨middle,before,behind⟩ := okBind performed
    obtain ⟨seen,acted⟩ := actsRun (s := { s with words := s.words.close }) before
    obtain ⟨toks,s',told,run,settled,extra,sources⟩ := ih (s := ⟨middle,s.words.close,s.extra,seen⟩)
      (by rw [phaseClosed,stands]) behind
    refine ⟨_,s',tokensNext (tokenOfSpelled spells) (tokensNext (tokenOfWord word) told),?_,settled,extra,
      by rw [sources,collectedClosed]⟩
    rw [readTokens,clustered]
    exact (bindOk acted).trans run
  | @path phase arg rest acts paths early word later ih =>
    obtain ⟨words,taken,inside,more⟩ := wordTaken (stands ▸ early) arg
    obtain ⟨toks,s',told,run,settled,extra,sources⟩ := ih (s := { s with words }) inside performed
    refine ⟨_,s',tokensNext (tokenOfWord word) told,?_,settled,extra,?_⟩
    · rw [readTokens,taken,run]
    · rw [sources,more,List.append_assoc]
      rfl
  | @mark phase rest early =>
    cases performed
    obtain ⟨words,run,sources⟩ := markRead (g := g) (stands ▸ early) rest
    exact ⟨_,_,by rw [tokens]; rfl,run,rfl,rfl,sources⟩

theorem groupUnique {arg : String} {acts acts' : List Act} {waiting waiting' : Option OptionSpec}
    (group : Group g.names arg acts waiting) (group' : Group g.names arg acts' waiting') :
    acts = acts' ∧ waiting = waiting' := by
  obtain ⟨o,name,attached,spells,clustered⟩ := clusteredGroup group
  obtain ⟨o',name',attached',spells',clustered'⟩ := clusteredGroup group'
  cases (tokenOfSpelled spells).symm.trans (tokenOfSpelled spells')
  cases clustered.symm.trans clustered'
  exact ⟨rfl,rfl⟩

theorem groupNoWord {arg : String} {acts : List Act} {waiting : Option OptionSpec}
    (group : Group g.names arg acts waiting) : ¬Word g.names arg := by
  intro word
  obtain ⟨o,name,attached,spells,_⟩ := clusteredGroup group
  cases (tokenOfSpelled spells).symm.trans (tokenOfWord word)

theorem groupNoMark {acts : List Act} {waiting : Option OptionSpec} : ¬Group g.names separatorText acts waiting := by
  intro group
  obtain ⟨o,name,attached,spells,_⟩ := clusteredGroup group
  exact separatorUnread (tokenOfSpelled spells)

theorem wordNoMark : ¬Word g.names separatorText := fun word => separatorUnread (tokenOfWord word)

theorem lineUnique {phase : Phase} {args : List String} {acts acts' : List Act} {paths paths' : List String}
    (line : Line g.names phase args acts paths) (line' : Line g.names phase args acts' paths') :
    acts = acts' ∧ paths = paths' := by
  induction line generalizing acts' paths' with
  | done =>
    cases line'
    exact ⟨rfl,rfl⟩
  | option group later ih =>
    cases line' with
    | option group' later' =>
      obtain ⟨rfl,_⟩ := groupUnique group group'
      obtain ⟨rfl,rfl⟩ := ih later'
      exact ⟨rfl,rfl⟩
    | argument group' word later' => cases (groupUnique group group').2
    | path early word later' => exact absurd word (groupNoWord group)
    | mark early => exact absurd group groupNoMark
  | argument group word later ih =>
    cases line' with
    | option group' later' => cases (groupUnique group group').2
    | argument group' word' later' =>
      obtain ⟨rfl,same⟩ := groupUnique group group'
      obtain ⟨rfl,rfl⟩ := ih later'
      cases same
      exact ⟨rfl,rfl⟩
    | path early word' later' => exact absurd word' (groupNoWord group)
    | mark early => exact absurd group groupNoMark
  | path early word later ih =>
    cases line' with
    | option group' later' => exact absurd word (groupNoWord group')
    | argument group' word' later' => exact absurd word (groupNoWord group')
    | path early' word' later' =>
      obtain ⟨rfl,rfl⟩ := ih later'
      exact ⟨rfl,rfl⟩
    | mark early' => exact absurd word wordNoMark
  | mark early =>
    cases line' with
    | option group' later' => exact absurd group' groupNoMark
    | argument group' word' later' => exact absurd group' groupNoMark
    | path early' word' later' => exact absurd word' wordNoMark
    | mark early' => exact ⟨rfl,rfl⟩

theorem extraKept {s s' : State} {pending : Option (List Act × OptionSpec)} {toks : List Token}
    (run : readTokens g s pending toks = .ok s') (none : s'.extra = []) : s.extra = [] := by
  fun_induction readTokens g s pending toks with
  | case1 s acts o text rest ih =>
    obtain ⟨next,acted,later⟩ := okBind run
    rw [← (actsDone acted).2.2]
    exact ih next later
  | case2 => cases run
  | case3 =>
    cases run
    exact none
  | case4 s text rest ih =>
    have kept := ih run
    unfold State.word at kept
    split at kept
    · exact kept
    · exact kept
    · simp at kept
  | case5 s rest ih =>
    have kept := ih run
    unfold State.separator at kept
    split at kept
    · exact kept
    · exact kept
    · simp at kept
  | case6 s text rest ih => simpa using ih run
  | case7 s o name attached rest closed taken waits =>
    obtain ⟨c,_,later⟩ := okBind run
    split at later
    · obtain ⟨next,acted,last⟩ := okBind later
      have kept := taken next last
      rwa [(actsDone acted).2.2] at kept
    · exact waits _ _ later

theorem lateLeft {s : State} (late : phaseOf s.words = .after) : (∀ text, (s.word text).extra ≠ []) ∧ s.separator.extra ≠ [] := by
  obtain ⟨settings,words,extra,seen⟩ := s
  cases words with
  | taken words => simp [State.word,State.separator]
  | _ => cases late

/- Whatever the reader takes in full is a line. The induction is on the words, for both things the reader can be about:
the next word, and the argument an option waits for. -/
theorem readLine {args : List String} {toks : List Token} (told : tokens g args = .ok toks) {s s' : State}
    (none : s'.extra = []) :
    (readTokens g s .none toks = .ok s' → ∃ acts paths, Line g.names (phaseOf s.words) args acts paths ∧
      perform s.settings acts = .ok s'.settings ∧ s'.sources = collected s.words ++ paths) ∧
    ∀ before o, readTokens g s (some (before,o)) toks = .ok s' → ∃ value rest acts paths, args = value :: rest ∧
      Word g.names value ∧ Line g.names (phaseOf s.words) rest acts paths ∧
      perform s.settings (before ++ (o,value) :: acts) = .ok s'.settings ∧ s'.sources = collected s.words ++ paths := by
  induction args generalizing toks s with
  | nil =>
    cases told
    refine ⟨fun run => ?_,fun before o run => by cases run⟩
    cases run
    exact ⟨[],[],.done,rfl,by rw [sourcesClosed,List.append_nil]⟩
  | cons arg rest ih =>
    rcases tokensCases told with ⟨rfl,rfl⟩ | ⟨token,later,first,others,rfl⟩
    · refine ⟨fun run => ?_,fun before o run => by cases run⟩
      -- behind the paths the mark itself would be left over
      have early : phaseOf s.words ≠ .after := by
        intro late
        rw [readTokens] at run
        exact (lateLeft late).2 (extraKept run none)
      obtain ⟨words,read,sources⟩ := markRead (g := g) early rest
      cases run.symm.trans read
      exact ⟨[],rest,.mark early,rfl,sources⟩
    rcases tokenOfCases first with ⟨word,rfl⟩ | ⟨o,name,attached,spells,rfl⟩ | rfl
    · constructor
      · intro run
        rw [readTokens] at run
        have early : phaseOf s.words ≠ .after := fun late => (lateLeft late).1 arg (extraKept run none)
        obtain ⟨words,taken,inside,more⟩ := wordTaken early arg
        rw [taken] at run
        obtain ⟨acts,paths,line,performed,sources⟩ := (ih others).1 run
        refine ⟨acts,arg :: paths,.path early word (inside ▸ line),performed,?_⟩
        rw [sources,more,List.append_assoc]
        rfl
      · intro before o run
        rw [readTokens] at run
        obtain ⟨u,acted,next⟩ := okBind run
        obtain ⟨performed,same,_⟩ := actsDone acted
        obtain ⟨acts,paths,line,more,sources⟩ := (ih others).1 next
        refine ⟨arg,rest,acts,paths,rfl,word,same ▸ line,?_,same ▸ sources⟩
        rw [List.append_cons,performAppend]
        exact (bindOk performed).trans more
    · refine ⟨fun run => ?_,fun before o run => by cases run⟩
      rw [readTokens] at run
      obtain ⟨⟨acts,waiting⟩,clustered,run⟩ := okBind run
      have group := groupClustered spells clustered
      cases waiting with
      | none =>
        obtain ⟨u,acted,next⟩ := okBind run
        obtain ⟨performed,same,_⟩ := actsDone acted
        obtain ⟨more,paths,line,behind,sources⟩ := (ih others).1 next
        rw [same] at line sources
        rw [phaseClosed] at line
        rw [collectedClosed] at sources
        refine ⟨acts ++ more,paths,.option group line,?_,sources⟩
        rw [performAppend]
        exact (bindOk performed).trans behind
      | some o =>
        obtain ⟨value,rest,more,paths,rfl,word,line,performed,sources⟩ := (ih others).2 _ _ run
        rw [phaseClosed] at line
        rw [collectedClosed] at sources
        exact ⟨_,paths,.argument group word line,performed,sources⟩
    · refine ⟨fun run => ?_,fun before o run => by cases run⟩
      rw [readTokens] at run
      have kept := extraKept run none
      simp at kept

def pathsOr (preset : Settings) (paths : List String) : Value :=
  if paths.isEmpty then
    match preset.lookup sourceKey with
    | some .none => .list []
    | some v => v
    | none => .list []
  else .list (paths.map .text)

def Numeric (g : Grammar) : Prop :=
  ∀ o ∈ g.options, o.effect = .storeInteger → ∀ text, g.preset.lookup o.key ≠ some (.text text)

section
variable (numeric : Numeric g)
include numeric

theorem presetsKept (s : State) (settings : Settings) : g.options.foldlM (convertPreset g s) settings = .ok settings := by
  have each (o : OptionSpec) (member : o ∈ g.options) : convertPreset g s settings o = .ok settings := by
    unfold convertPreset
    split
    · rename_i text effect preset
      exact absurd preset (numeric o member effect text)
    · rfl
  generalize g.options = options at each
  induction options with
  | nil => rfl
  | cons o options ih =>
    rw [List.foldlM_cons,bindOk (each o (by simp))]
    exact ih (fun o member => each o (by simp [member]))

theorem evaluateRead {args : List String} {toks : List Token} {s : State} {settings : Settings}
    (told : tokens g args = .ok toks) (read : readTokens g ⟨g.start,.ahead,[],[]⟩ none toks = .ok s) :
    evaluate g args = .ok settings ↔ (g.sourceRequired = true → s.sources ≠ []) ∧ s.extra = [] ∧
      settings = s.settings.put sourceKey (pathsOr g.preset s.sources) := by
  unfold evaluate
  rw [bindOk told,bindOk read]
  dsimp only
  rw [bindOk (presetsKept numeric s _)]
  split
  · rename_i missing
    rw [Bool.and_eq_true,List.isEmpty_iff] at missing
    exact ⟨fun run => (by cases run),fun given => absurd missing.2 (given.1 missing.1)⟩
  rename_i given
  rw [Bool.and_eq_true,List.isEmpty_iff,not_and] at given
  split
  · rename_i extra
    refine ⟨fun run => (by cases run),fun left => ?_⟩
    rw [left.2.1] at extra
    cases extra
  · rename_i extra
    refine ⟨fun run => ⟨given,by simpa using extra,?_⟩,fun settled => ?_⟩
    · cases run
      rfl
    · rw [settled.2.2]
      rfl

theorem evaluatedLine {args : List String} {settings : Settings} : evaluate g args = .ok settings ↔
    ∃ acts paths left, Line g.names .before args acts paths ∧ perform g.start acts = .ok left ∧
      (g.sourceRequired = true → paths ≠ []) ∧ settings = left.put sourceKey (pathsOr g.preset paths) := by
  constructor
  · intro run
    have rest := run
    unfold evaluate at rest
    obtain ⟨toks,told,rest⟩ := okBind rest
    obtain ⟨s,read,_⟩ := okBind rest
    obtain ⟨required,extra,settled⟩ := (evaluateRead numeric told read).mp run
    obtain ⟨acts,paths,line,performed,sources⟩ := (readLine told extra).1 read
    obtain rfl : s.sources = paths := sources
    exact ⟨acts,_,_,line,performed,required,settled⟩
  · rintro ⟨acts,paths,left,line,performed,required,rfl⟩
    obtain ⟨toks,s,told,read,rfl,extra,sources⟩ := lineRead line (s := ⟨g.start,.ahead,[],[]⟩) rfl performed
    obtain rfl : s.sources = paths := sources
    exact (evaluateRead numeric told read).mpr ⟨required,extra,rfl⟩

end

end

end Retouch.CommandLine

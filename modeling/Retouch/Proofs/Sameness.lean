import Retouch.Document
import Retouch.Proofs.Terminators

/-! Equal documents. A comparison looks at the forms that happen to be stored, and reading and comparing store more of
them. But both forms of a document say the same as long as it started from a text that line feeds alone break, so a
comparison always answers about the texts, whatever was read or compared before it. Such texts are exactly those that come
back when their lines are joined. -/
namespace Retouch.Sameness
open Terminators

structure Normal (text : String) : Prop where
  ended : text = "" ∨ ∃ front, text = front ++ "\n"
  fed : ∀ c ∈ text.toList, isLineBreak c = true → c = '\n'

theorem splitJoined {lines : List String} (unbroken : ∀ line ∈ lines, Unbroken line) :
    splitLines (joinLines lines) = lines := by
  rw [← piecesLines,piecesJoined unbroken]
  simp [List.map_map,Function.comp_def]

/- Splitting goes on inside a line, so the characters of the line in hand come back in front of the rest. -/
theorem joinedSplit {text : String} (normal : Normal text) : joinLines (splitLines text) = text := by
  have follow (line cs : List Char) (ended : cs.getLast? = some '\n' ∨ cs = [] ∧ line = [])
      (fed : ∀ c ∈ cs, isLineBreak c = true → c = '\n') :
      (joinLines (linesAfter line cs)).toList = line.reverse ++ cs := by
    have later {c : Char} {rest : List Char} (ended : (c :: rest).getLast? = some '\n') (filled : rest ≠ []) :
        rest.getLast? = some '\n' := by
      rwa [List.getLast?_cons_of_ne_nil filled] at ended
    fun_induction linesAfter line cs with
    | case1 line empty => simp [joinLines,List.isEmpty_iff.mp empty]
    | case2 line filled =>
      rcases ended with last | ⟨_,rfl⟩
      · cases last
      · simp at filled
    | case3 line rest ih => exact absurd (fed '\r' (by simp) rfl) (by decide)
    | case4 line c rest alone broken ih =>
      obtain rfl := fed c (by simp) broken
      have behind := ih (by
        by_cases last : rest = []
        · exact .inr ⟨last,rfl⟩
        · exact .inl (later (ended.resolve_right (by simp)) last)) (fun d member => fed d (by simp [member]))
      simp only [joinLines] at behind
      simp [joinLines,String.join_cons,behind]
    | case5 line c rest alone inside ih =>
      have last := ended.resolve_right (by simp)
      have filled : rest ≠ [] := by
        rintro rfl
        cases Option.some.inj last
        exact inside rfl
      simpa using ih (.inl (later last filled)) (fun d member => fed d (by simp [member]))
  apply String.toList_injective
  refine follow [] text.toList ?_ normal.fed
  rcases normal.ended with rfl | ⟨front,rfl⟩
  · exact .inr ⟨rfl,rfl⟩
  · exact .inl (by simp)

theorem joinedNormal {lines : List String} (unbroken : ∀ line ∈ lines, Unbroken line) : Normal (joinLines lines) := by
  induction lines with
  | nil => exact ⟨.inl rfl,by simp [joinLines]⟩
  | cons line rest ih =>
    obtain ⟨ended,fed⟩ := ih (fun other member => unbroken other (by simp [member]))
    have whole : joinLines (line :: rest) = line ++ "\n" ++ joinLines rest := by simp [joinLines,String.join_cons]
    refine ⟨.inr ?_,fun c member broken => ?_⟩
    · rcases ended with none | ⟨front,last⟩
      · exact ⟨line,by rw [whole,none,String.append_empty]⟩
      · exact ⟨line ++ "\n" ++ front,by rw [whole,last]; simp only [String.append_assoc]⟩
    · rw [whole] at member
      simp only [String.toList_append,List.mem_append] at member
      rcases member with (inside | feed) | later
      · rw [unbroken line (by simp) c inside] at broken
        cases broken
      · simpa using feed
      · exact fed c later broken

def breaks : List Char := ['\n','\r','\x0b','\x0c','\x1c','\x1d','\x1e','\u0085','\u2028','\u2029']

theorem breaksExact (c : Char) : isLineBreak c = true ↔ c ∈ breaks := by
  simp [isLineBreak,breaks,or_assoc]

theorem unbrokenExact (line : String) : Unbroken line ↔ ∀ c ∈ breaks, c ∉ line.toList := by
  simp only [Unbroken,← breaksExact]
  constructor
  · intro plain c broken member
    rw [plain c member] at broken
    cases broken
  · intro absent c member
    exact Bool.eq_false_iff.mpr (fun broken => absent c broken member)

theorem joinedSplitIff (text : String) : joinLines (splitLines text) = text ↔ Normal text := by
  constructor
  · intro same
    rw [← same]
    exact joinedNormal (splitUnbroken text)
  · exact joinedSplit

theorem joiningUndoesSplitting (lines : List String) (text : String) :
    (splitLines (joinLines lines) = lines ↔ ∀ line ∈ lines, ∀ c ∈ breaks, c ∉ line.toList) ∧
    (joinLines (splitLines text) = text ↔
      (text = "" ∨ ∃ front, text = front ++ "\n") ∧ ∀ c ∈ breaks, c ∈ text.toList → c = '\n') ∧
    ∀ line ∈ (Document.ofText text).lines, ∀ c ∈ breaks, c ∉ line.toList := by
  simp only [← unbrokenExact]
  refine ⟨⟨fun same => ?_,splitJoined⟩,(joinedSplitIff text).trans ⟨fun normal => ?_,fun parts => ?_⟩,splitUnbroken text⟩
  · rw [← same]
    exact splitUnbroken (joinLines lines)
  · exact ⟨normal.ended,fun c broken member => normal.fed c member ((breaksExact c).mpr broken)⟩
  · exact ⟨parts.1,fun c member broken => parts.2 c ((breaksExact c).mp broken) member⟩

inductive Built : Document → String → Prop where
  | blank (modified : String) : Built { Document.empty with modified } ""
  | ofText {text : String} (normal : Normal text) (modified : String) : Built { Document.ofText text with modified } text
  | ofLines {lines : List String} (unbroken : ∀ line ∈ lines, Unbroken line) (modified : String) :
      Built { Document.ofLines lines with modified } (joinLines lines)

/- The invariant: what is stored of a document are forms of one text, and nothing is stored only of the empty text. -/
structure Keeps (text : String) (d : Document) : Prop where
  normal : Normal text
  asText : ∀ stored, d.text? = some stored → stored = text
  asLines : ∀ stored, d.lines? = some stored → stored = splitLines text
  blank : d.text? = none → d.lines? = none → text = ""

theorem builtKeeps {d : Document} {text : String} (built : Built d text) : Keeps text d := by
  cases built with
  | blank => exact ⟨⟨.inl rfl,by simp⟩,nofun,nofun,fun _ _ => rfl⟩
  | ofText normal => exact ⟨normal,fun _ stored => (Option.some.inj stored).symm,nofun,nofun⟩
  | ofLines unbroken =>
    refine ⟨joinedNormal unbroken,nofun,fun stored kept => ?_,nofun⟩
    rw [splitJoined unbroken]
    exact (Option.some.inj kept).symm

section
variable {text : String} {d : Document} (keeps : Keeps text d)
include keeps

theorem textKept : d.text = text := by
  unfold Document.text
  cases stored : d.text? with
  | some kept => exact keeps.asText kept stored
  | none =>
    cases lines : d.lines? with
    | some kept =>
      rw [keeps.asLines kept lines]
      exact joinedSplit keeps.normal
    | none =>
      rw [keeps.blank stored lines]
      rfl

theorem linesKept : d.lines = splitLines text := by
  unfold Document.lines
  cases lines : d.lines? with
  | some kept => exact keeps.asLines kept lines
  | none =>
    cases stored : d.text? with
    | some kept =>
      rw [keeps.asText kept stored]
      rfl
    | none =>
      rw [keeps.blank stored lines]
      rfl

theorem keepTextKeeps : Keeps text d.keepText where
  normal := keeps.normal
  asText stored kept := by rw [← Option.some.inj kept,textKept keeps]
  asLines := keeps.asLines
  blank := nofun

theorem keepLinesKeeps : Keeps text d.keepLines where
  normal := keeps.normal
  asText := keeps.asText
  asLines stored kept := by rw [← Option.some.inj kept,linesKept keeps]
  blank _ := nofun

/- Where neither form is stored, or only empty ones, the text is empty; and an empty text leaves nothing else to store. -/
theorem lacksBoth : (d.lacksText && d.lacksLines) = true ↔ text = "" := by
  simp only [Document.lacksText,Document.lacksLines,Bool.and_eq_true,beq_iff_eq,List.isEmpty_iff]
  constructor
  · rintro ⟨short,none⟩
    cases stored : d.text? with
    | some kept =>
      rw [← keeps.asText kept stored]
      simpa [stored] using short
    | none =>
      cases lines : d.lines? with
      | some kept =>
        rw [lines,Option.getD_some] at none
        rw [← joinedSplit keeps.normal,← keeps.asLines kept lines,none]
        rfl
      | none => exact keeps.blank stored lines
  · rintro rfl
    constructor
    · cases stored : d.text? with
      | some kept => exact keeps.asText kept stored
      | none => rfl
    · cases lines : d.lines? with
      | some kept => exact keeps.asLines kept lines
      | none => rfl

end

theorem splitInjective {text text' : String} (normal : Normal text) (normal' : Normal text')
    (same : splitLines text = splitLines text') : text = text' := by
  rw [← joinedSplit normal,same,joinedSplit normal']

theorem sameExact {text text' : String} {d e : Document} (keeps : Keeps text d) (keeps' : Keeps text' e) :
    (d.same e).1 = true ↔ text = text' := by
  unfold Document.same
  split
  · rename_i textless
    split
    · rename_i lineless
      have blank : text = "" := (lacksBoth keeps).mp (by rw [textless,lineless]; rfl)
      rw [blank,lacksBoth keeps']
      exact eq_comm
    · rename_i lined
      -- as lines are not lacking, they are stored
      obtain ⟨stored,kept⟩ : ∃ stored, d.lines? = some stored := by
        cases lines : d.lines? with
        | some stored => exact ⟨stored,rfl⟩
        | none => simp [Document.lacksLines,lines] at lined
      rw [kept,Option.getD_some,linesKept keeps',keeps.asLines stored kept]
      exact ⟨fun same => splitInjective keeps.normal keeps'.normal (beq_iff_eq.mp same),fun same => by simp [same]⟩
  · rename_i texted
    obtain ⟨stored,kept⟩ : ∃ stored, d.text? = some stored := by
      cases text : d.text? with
      | some stored => exact ⟨stored,rfl⟩
      | none => simp [Document.lacksText,text] at texted
    rw [kept,Option.getD_some,textKept keeps',keeps.asText stored kept]
    exact beq_iff_eq

theorem sameKeeps {text : String} {e : Document} (keeps : Keeps text e) (d : Document) : Keeps text (d.same e).2 := by
  unfold Document.same
  split
  · split
    · exact keeps
    · exact keepLinesKeeps keeps
  · exact keepTextKeeps keeps

inductive Use (ι : Type) where
  | text (i : ι)
  | lines (i : ι)
  | compare (i j : ι)

variable {ι : Type} [DecidableEq ι]

def Use.on (docs : ι → Document) : Use ι → ι → Document
  | .text i, k => if k = i then (docs i).keepText else docs k
  | .lines i, k => if k = i then (docs i).keepLines else docs k
  | .compare i j, k => if k = j then ((docs i).same (docs j)).2 else docs k

def after (docs : ι → Document) (uses : List (Use ι)) : ι → Document := uses.foldl Use.on docs

theorem useKeeps {docs : ι → Document} {texts : ι → String} (keeps : ∀ i, Keeps (texts i) (docs i)) (use : Use ι) (k : ι) :
    Keeps (texts k) (use.on docs k) := by
  have put {j : ι} {d : Document} (kept : Keeps (texts j) d) : Keeps (texts k) (if k = j then d else docs k) := by
    split
    · rename_i same
      rw [same]
      exact kept
    · exact keeps k
  cases use with
  | text i => exact put (keepTextKeeps (keeps i))
  | lines i => exact put (keepLinesKeeps (keeps i))
  | compare i j => exact put (sameKeeps (keeps j) (docs i))

theorem usesKeep {docs : ι → Document} {texts : ι → String} (keeps : ∀ i, Keeps (texts i) (docs i)) (uses : List (Use ι)) :
    ∀ i, Keeps (texts i) (after docs uses i) := by
  induction uses generalizing docs with
  | nil => exact keeps
  | cons use uses ih => exact ih (useKeeps keeps use)

theorem sameIffTextsEqual (docs : ι → Document) (texts : ι → String) (built : ∀ i, Built (docs i) (texts i))
    (uses : List (Use ι)) :
    (∀ i j, ((after docs uses i).same (after docs uses j)).1 = true ↔ texts i = texts j) ∧
    Equivalence (fun i j => ((after docs uses i).same (after docs uses j)).1 = true) ∧
    (∀ i, (after docs uses i).text = texts i) ∧
    ∀ uses' i j, ((after docs uses i).same (after docs uses j)).1 = ((after docs uses' i).same (after docs uses' j)).1 := by
  have keeps (uses : List (Use ι)) (i : ι) : Keeps (texts i) (after docs uses i) :=
    usesKeep (fun i => builtKeeps (built i)) uses i
  have exact (uses : List (Use ι)) (i j : ι) : ((after docs uses i).same (after docs uses j)).1 = true ↔ texts i = texts j :=
    sameExact (keeps uses i) (keeps uses j)
  refine ⟨exact uses,⟨fun i => ?_,fun {i j} same => ?_,fun {i j k} same same' => ?_⟩,fun i => textKept (keeps uses i),
    fun uses' i j => ?_⟩
  · exact (exact uses i i).mpr rfl
  · exact (exact uses j i).mpr ((exact uses i j).mp same).symm
  · exact (exact uses i k).mpr (((exact uses i j).mp same).trans ((exact uses j k).mp same'))
  · rw [Bool.eq_iff_iff,exact uses i j,exact uses' i j]

def mixed (i : Nat) : Document := [Document.empty,Document.ofText "a\n",Document.ofLines ["a"]].getD i Document.empty

def mixedTexts (i : Nat) : String := ["","a\n","a\n"].getD i ""

theorem mixedBuilt (i : Nat) : Built (mixed i) (mixedTexts i) := by
  rcases i with _ | _ | _ | i
  · exact .blank ""
  · exact .ofText ⟨.inr ⟨"a",rfl⟩,by simp [isLineBreak]⟩ ""
  · have unbroken : ∀ line ∈ ["a"], Unbroken line := by
      rintro line member
      obtain rfl := List.mem_singleton.mp member
      simp [Unbroken,isLineBreak]
    exact .ofLines unbroken ""
  · exact .blank ""

theorem mixedCompared :
    ((after mixed [.text 2,.compare 0 1,.lines 1] 1).same (after mixed [.text 2,.compare 0 1,.lines 1] 2)).1 = true ∧
    ((after mixed [] 2).same (after mixed [] 1)).1 = true ∧
    ((after mixed [.compare 0 2] 0).same (after mixed [.compare 0 2] 2)).1 = false := by
  refine ⟨((sameIffTextsEqual mixed mixedTexts mixedBuilt _).1 1 2).mpr rfl,
    ((sameIffTextsEqual mixed mixedTexts mixedBuilt _).1 2 1).mpr rfl,?_⟩
  rw [Bool.eq_false_iff,ne_eq,(sameIffTextsEqual mixed mixedTexts mixedBuilt _).1 0 2]
  decide

end Retouch.Sameness

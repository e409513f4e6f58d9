import Retouch.Options.Reading
import Retouch.Proofs.Lookup
import Mathlib

/-! How an option is spelled. A word names an option by one of its names, by a long name that is cut short, or by a
letter behind a single dash; an argument may be attached to it. The reader takes a word for an option exactly if the word
spells it, and for a path or an argument exactly if no option can be meant. -/
namespace Retouch.Spelling
open Options
open String (ofList)

structure Assigned (text key value : String) : Prop where
  whole : text.toList = key.toList ++ '=' :: value.toList
  first : '=' ∉ key.toList

structure Only (names : List (String × OptionSpec)) (stem name : String) (o : OptionSpec) : Prop where
  known : (name,o) ∈ names
  starts : name.startsWith stem = true
  alone : ∀ e ∈ names, e.1.startsWith stem = true → e.1 = name

inductive Spells (names : List (String × OptionSpec)) (arg : String) : OptionSpec → String → Option String → Prop where
  | name {o} (named : names.lookup arg = some o) : Spells names arg o arg none
  | valued {o key value} (assigned : Assigned arg key value) (named : names.lookup key = some o) :
      Spells names arg o key (some value)
  | cut {o name} (unnamed : names.lookup arg = none) (long : arg.startsWith "--" = true) (plain : '=' ∉ arg.toList)
      (only : Only names arg name o) : Spells names arg o name none
  | cutValued {o name key value} (assigned : Assigned arg key value) (unnamed : names.lookup key = none)
      (long : arg.startsWith "--" = true) (only : Only names key name o) : Spells names arg o name (some value)
  | letter {o c d rest} (named : names.lookup (ofList ['-',c]) = some o) (whole : arg.toList = '-' :: c :: d :: rest)
      (apart : d ≠ '=') : Spells names arg o (ofList ['-',c]) (some (ofList (d :: rest)))

inductive Stem (arg : String) : String → Prop where
  | whole (plain : '=' ∉ arg.toList) : Stem arg arg
  | before {key value} (assigned : Assigned arg key value) : Stem arg key

def Unmeant (names : List (String × OptionSpec)) (arg : String) : Prop :=
  if arg.startsWith "--" then ∀ stem, Stem arg stem → ∀ e ∈ names, e.1.startsWith stem = false
  else names.lookup (ofList (arg.toList.take 2)) = none

inductive Word (names : List (String × OptionSpec)) (arg : String) : Prop where
  | plain (dashless : arg.startsWith "-" = false)
  | dash (single : arg = "-")
  | unmeant (unmeant : Unmeant names arg) (shape : (isNegativeNumber arg || arg.contains ' ') = true)

def nameTexts : List String :=
  ["-h","--help","-r","--revision","--diff","--check","-i","--isort","-L","--lint","-c","--config","-v","--verbose",
    "-q","--quiet","--version","-S","--skip-string-normalization","--no-skip-string-normalization","-l","--line-length"]

theorem apartFromEquals {cs : List Char} (absent : '=' ∉ cs) : ∀ c ∈ cs, (c != '=') = true := by
  intro c inside
  rw [bne_iff_ne]
  rintro rfl
  exact absent inside

theorem takenToEquals {cs key value : List Char} (whole : cs = key ++ '=' :: value) (first : '=' ∉ key) :
    cs.takeWhile (· != '=') = key := by
  rw [whole,List.takeWhile_append_of_pos (apartFromEquals first)]
  simp

theorem splitAtEquals {text : String} {key value : List Char} (whole : text.toList = key ++ '=' :: value)
    (first : '=' ∉ key) : splitValue? text = some (ofList key,ofList value) := by
  simp only [splitValue?,takenToEquals whole first]
  rw [whole,List.drop_left]

theorem splitValueNone {text : String} : splitValue? text = none ↔ '=' ∉ text.toList := by
  constructor
  · intro none inside
    obtain ⟨key,value,whole,first⟩ := List.eq_append_cons_of_mem inside
    rw [splitAtEquals whole first] at none
    cases none
  · intro absent
    have taken := List.takeWhile_eq_self_iff.mpr (apartFromEquals absent)
    simp only [splitValue?,taken,List.drop_length]

theorem splitValueSome {text key value : String} : splitValue? text = some (key,value) ↔ Assigned text key value := by
  constructor
  · intro split
    by_cases inside : '=' ∈ text.toList
    · obtain ⟨before,after,whole,first⟩ := List.eq_append_cons_of_mem inside
      rw [splitAtEquals whole first] at split
      cases split
      exact ⟨by simpa using whole,by simpa using first⟩
    · rw [splitValueNone.mpr inside] at split
      cases split
  · intro assigned
    simpa using splitAtEquals assigned.whole assigned.first

theorem assignedInside {text key value : String} (assigned : Assigned text key value) : '=' ∈ text.toList := by
  simp [assigned.whole]

theorem assignedStarts {text key value start : String} (assigned : Assigned text key value)
    (starts : key.startsWith start = true) : text.startsWith start = true := by
  rw [String.startsWith_string_iff,assigned.whole] at *
  exact starts.trans (List.prefix_append _ _)

section
variable {g : Grammar}

theorem namesWritten : g.names.map Prod.fst = nameTexts := rfl

theorem namesKeyed : (g.names.map Prod.fst).Nodup := by
  rw [namesWritten]
  decide

theorem nameForms : ∀ name ∈ nameTexts, name.startsWith "-" = true ∧ '=' ∉ name.toList ∧
    (name.startsWith "--" = false ∧ name.toList.length = 2 ∨ name.startsWith "--" = true ∧ 2 < name.toList.length) := by
  decide +kernel

theorem findNamed {name : String} {o : OptionSpec} : g.find? name = some o ↔ (name,o) ∈ g.names := by
  constructor
  · intro found
    obtain ⟨before,after,split,_⟩ := List.lookup_eq_some_iff.mp found
    simp [split]
  · exact Lookup.foundOnly namesKeyed

theorem nameFound {name : String} {o : OptionSpec} (found : g.find? name = some o) : name ∈ nameTexts :=
  namesWritten (g := g) ▸ List.mem_map.mpr ⟨_,findNamed.mp found,rfl⟩

theorem letterDashless {o : OptionSpec} {c : Char} (named : g.find? (ofList ['-',c]) = some o) : c ≠ '-' ∧ c ≠ '=' := by
  obtain ⟨_,plain,⟨short,_⟩ | ⟨_,long⟩⟩ := nameForms _ (nameFound named)
  · refine ⟨?_,by simpa [eq_comm] using plain⟩
    rintro rfl
    exact absurd short (by decide +kernel)
  · simp at long

theorem letterUnnamed {text : String} {o : OptionSpec} {c d : Char} {rest : List Char}
    (named : g.find? (ofList ['-',c]) = some o) (whole : text.toList = '-' :: c :: d :: rest) : g.find? text = none := by
  refine Option.eq_none_iff_forall_ne_some.mpr (fun o' found => ?_)
  obtain ⟨_,_,⟨_,short⟩ | ⟨long,_⟩⟩ := nameForms _ (nameFound found)
  · simp [whole] at short
  · rw [String.startsWith_string_iff,whole] at long
    exact (letterDashless named).1 (by simpa [eq_comm] using long)

theorem filterOnly {α : Type} {xs : List α} (nodup : xs.Nodup) {p : α → Bool} {x : α} :
    xs.filter p = [x] ↔ x ∈ xs ∧ p x = true ∧ ∀ y ∈ xs, p y = true → y = x := by
  constructor
  · intro only
    have member (y : α) : y ∈ xs ∧ p y = true ↔ y = x := by
      rw [← List.mem_filter,only,List.mem_singleton]
    exact ⟨((member x).mpr rfl).1,((member x).mpr rfl).2,fun y inside holds => (member y).mp ⟨inside,holds⟩⟩
  · rintro ⟨inside,holds,alone⟩
    refine List.perm_singleton.mp ((List.perm_ext_iff_of_nodup (nodup.filter p) (List.nodup_singleton x)).mpr (fun y => ?_))
    rw [List.mem_filter,List.mem_singleton]
    exact ⟨fun found => alone y found.1 found.2,by rintro rfl; exact ⟨inside,holds⟩⟩

theorem namesOnly {p : String → Bool} {name : String} {o : OptionSpec} : g.names.filter (fun e => p e.1) = [(name,o)] ↔
    (name,o) ∈ g.names ∧ p name = true ∧ ∀ e ∈ g.names, p e.1 = true → e.1 = name := by
  rw [filterOnly (List.Nodup.of_map _ namesKeyed)]
  refine and_congr_right (fun known => and_congr_right (fun _ => forall₃_congr (fun e member _ => ?_)))
  refine ⟨congrArg Prod.fst,?_⟩
  obtain ⟨other,o'⟩ := e
  rintro rfl
  rw [Option.some.inj ((findNamed.mpr member).symm.trans (findNamed.mpr known))]

def picked (g : Grammar) (p : String → Bool) (attached : Option String) : List (OptionSpec × String × Option String) :=
  (g.names.filter (fun e => p e.1)).map (fun e => (e.2,e.1,attached))

theorem pickedOnly {p : String → Bool} {v attached : Option String} {o : OptionSpec} {name : String} :
    picked g p v = [(o,name,attached)] ↔
      attached = v ∧ (name,o) ∈ g.names ∧ p name = true ∧ ∀ e ∈ g.names, p e.1 = true → e.1 = name := by
  rw [← namesOnly,picked,List.map_eq_singleton_iff]
  constructor
  · rintro ⟨e,only,same⟩
    cases same
    exact ⟨rfl,only⟩
  · rintro ⟨rfl,only⟩
    exact ⟨_,only,rfl⟩

theorem pickedNone {p : String → Bool} {v : Option String} : picked g p v = [] ↔ ∀ e ∈ g.names, p e.1 = false := by
  rw [picked,List.map_eq_nil_iff,List.filter_eq_nil_iff]
  simp only [Bool.not_eq_true]

theorem pickedFilled {p : String → Bool} {v : Option String} {o : OptionSpec} {name : String}
    (named : g.find? name = some o) (holds : p name = true) : picked g p v ≠ [] := by
  intro none
  have unpicked := pickedNone.mp none _ (findNamed.mp named)
  exact absurd holds (by simp [unpicked])

theorem candidatesCut {arg : String} (long : arg.startsWith "--" = true) (plain : '=' ∉ arg.toList) :
    candidates g arg = picked g (·.startsWith arg) none := by
  rw [candidates,if_pos long,splitValueNone.mpr plain]
  rfl

theorem candidatesAssigned {arg key value : String} (long : arg.startsWith "--" = true)
    (assigned : Assigned arg key value) : candidates g arg = picked g (·.startsWith key) (some value) := by
  rw [candidates,if_pos long,splitValueSome.mpr assigned]
  rfl

theorem candidatesLetter {arg : String} (short : arg.startsWith "--" = false) : candidates g arg =
    picked g (· == ofList (arg.toList.take 2)) (some (ofList (arg.toList.drop 2))) := by
  rw [candidates,if_neg (by simp [short])]
  rfl

theorem candidatesNone {arg : String} : candidates g arg = [] ↔ Unmeant g.names arg := by
  unfold Unmeant
  split
  · rename_i long
    cases split : splitValue? arg with
    | none =>
      have plain := splitValueNone.mp split
      rw [candidatesCut long plain,pickedNone]
      refine ⟨?_,fun none => none arg (.whole plain)⟩
      rintro none stem (_ | assigned)
      · exact none
      · exact absurd (assignedInside assigned) plain
    | some parts =>
      have assigned := splitValueSome.mp split
      rw [candidatesAssigned long assigned,pickedNone]
      refine ⟨?_,fun none => none _ (.before assigned)⟩
      rintro none stem (plain | other)
      · exact absurd (assignedInside assigned) plain
      · cases Option.some.inj (split.symm.trans (splitValueSome.mpr other))
        exact none
  · rename_i short
    rw [candidatesLetter (by simpa using short),pickedNone,List.lookup_eq_none_iff]
    exact forall₂_congr (fun e _ => by rw [BEq.comm]; simp)

theorem namedMeant {arg : String} {o : OptionSpec} (named : g.find? arg = some o) : candidates g arg ≠ [] := by
  obtain ⟨_,plain,⟨short,two⟩ | ⟨long,_⟩⟩ := nameForms _ (nameFound named)
  · rw [candidatesLetter short]
    exact pickedFilled named (by simp [← two])
  · rw [candidatesCut long plain]
    exact pickedFilled named (String.startsWith_string_iff.mpr List.prefix_rfl)

theorem valuedMeant {arg key value : String} {o : OptionSpec} (assigned : Assigned arg key value)
    (named : g.find? key = some o) : candidates g arg ≠ [] := by
  obtain ⟨_,_,⟨short,two⟩ | ⟨long,_⟩⟩ := nameForms _ (nameFound named)
  · have behind : arg.toList.take 2 = key.toList := by rw [assigned.whole,← two,List.take_left]
    have apart : arg.startsWith "--" = false := by
      rw [Bool.eq_false_iff,ne_eq,String.startsWith_string_iff] at short ⊢
      exact fun starts => short (behind ▸ List.prefix_take_iff.mpr ⟨starts,by decide⟩)
    rw [candidatesLetter apart]
    exact pickedFilled named (by simp [behind])
  · rw [candidatesAssigned (assignedStarts assigned long) assigned]
    exact pickedFilled named (String.startsWith_string_iff.mpr List.prefix_rfl)

theorem exactSome {arg : String} {token : Token} : exactValue? g arg = some token ↔
    ∃ key value o, Assigned arg key value ∧ g.find? key = some o ∧ token = .option o key (some value) := by
  simp only [exactValue?,bind,Option.bind_eq_some_iff,Prod.exists,splitValueSome,pure,Option.some.injEq]
  constructor
  · rintro ⟨key,value,assigned,o,named,rfl⟩
    exact ⟨key,value,o,assigned,named,rfl⟩
  · rintro ⟨key,value,o,assigned,named,rfl⟩
    exact ⟨key,value,assigned,o,named,rfl⟩

theorem exactNone {arg : String} : exactValue? g arg = none ↔ ∀ key value, Assigned arg key value → g.find? key = none := by
  simp only [Option.eq_none_iff_forall_ne_some,ne_eq,exactSome]
  constructor
  · intro none key value assigned o named
    exact none _ ⟨key,value,o,assigned,named,rfl⟩
  · rintro unnamed token ⟨key,value,o,assigned,named,rfl⟩
    exact unnamed key value assigned o named

theorem tokenOfMeant {arg : String} {o : OptionSpec} {name : String} {attached : Option String}
    (dashed : arg.startsWith "-" = true) (filled : arg ≠ "-") (unnamed : g.find? arg = none)
    (unvalued : ∀ key value, Assigned arg key value → g.find? key = none)
    (only : candidates g arg = [(o,name,attached)]) : tokenOf g arg = .ok (.option o name attached) := by
  simp [tokenOf,dashed,filled,unnamed,exactNone.mpr unvalued,only]

theorem tokenOfSpelled {arg : String} {o : OptionSpec} {name : String} {attached : Option String}
    (spells : Spells g.names arg o name attached) : tokenOf g arg = .ok (.option o name attached) := by
  have dashes {text : String} (long : text.startsWith "--" = true) : text.startsWith "-" = true ∧ text ≠ "-" := by
    rw [String.startsWith_string_iff] at long ⊢
    exact ⟨(by decide : "-".toList <+: "--".toList).trans long,by rintro rfl; exact absurd long (by decide)⟩
  cases spells with
  | name named =>
    obtain ⟨dashed,_⟩ := nameForms _ (nameFound named)
    rw [tokenOf,if_neg (by simp [dashed]),Grammar.find?,named]
  | valued assigned named =>
    obtain ⟨dashed,_⟩ := nameForms _ (nameFound named)
    have unnamed : g.find? arg = none := Option.eq_none_iff_forall_ne_some.mpr
      (fun o' found => (nameForms _ (nameFound found)).2.1 (assignedInside assigned))
    have filled : arg ≠ "-" := by
      rintro rfl
      exact absurd (assignedInside assigned) (by decide)
    simp [tokenOf,assignedStarts assigned dashed,unnamed,filled,exactSome.mpr ⟨_,_,_,assigned,named,rfl⟩]
  | cut unnamed long plain only =>
    refine tokenOfMeant (dashes long).1 (dashes long).2 unnamed ?_ ?_
    · exact fun key value assigned => absurd (assignedInside assigned) plain
    · rw [candidatesCut long plain,pickedOnly]
      exact ⟨rfl,only.known,only.starts,only.alone⟩
  | cutValued assigned unnamed long only =>
    refine tokenOfMeant (dashes long).1 (dashes long).2 ?_ ?_ ?_
    · exact Option.eq_none_iff_forall_ne_some.mpr
        (fun o' found => (nameForms _ (nameFound found)).2.1 (assignedInside assigned))
    · intro key value other
      cases Option.some.inj ((splitValueSome.mpr assigned).symm.trans (splitValueSome.mpr other))
      exact unnamed
    · rw [candidatesAssigned long assigned,pickedOnly]
      exact ⟨rfl,only.known,only.starts,only.alone⟩
  | @letter c d rest named whole apart =>
    obtain ⟨dashless,other⟩ := letterDashless named
    have short : arg.startsWith "--" = false := by
      rw [Bool.eq_false_iff,ne_eq,String.startsWith_string_iff,whole]
      simpa [eq_comm] using dashless
    refine tokenOfMeant ?_ ?_ (letterUnnamed named whole) ?_ ?_
    · rw [String.startsWith_string_iff,whole]
      simp
    · rintro rfl
      simp at whole
    · intro key value assigned
      -- what stands before an equals sign begins with the letter and one more
      have taken := takenToEquals assigned.whole assigned.first
      simp only [whole,List.takeWhile_cons,bne_iff_ne.mpr other,bne_iff_ne.mpr apart] at taken
      exact letterUnnamed named taken.symm
    · rw [candidatesLetter short,pickedOnly,whole]
      refine ⟨rfl,findNamed.mp named,by simp,?_⟩
      simp

theorem spellsMeant {arg : String} {o : OptionSpec} {name : String} {attached : Option String}
    (dashed : arg.startsWith "-" = true) (unnamed : g.find? arg = none)
    (unvalued : ∀ key value, Assigned arg key value → g.find? key = none)
    (only : candidates g arg = [(o,name,attached)]) : Spells g.names arg o name attached := by
  cases long : arg.startsWith "--" with
  | true =>
    cases split : splitValue? arg with
    | none =>
      have plain := splitValueNone.mp split
      rw [candidatesCut long plain,pickedOnly] at only
      obtain ⟨rfl,known,starts,alone⟩ := only
      exact .cut unnamed long plain ⟨known,starts,alone⟩
    | some parts =>
      have assigned := splitValueSome.mp split
      rw [candidatesAssigned long assigned,pickedOnly] at only
      obtain ⟨rfl,known,starts,alone⟩ := only
      exact .cutValued assigned (unvalued _ _ assigned) long ⟨known,starts,alone⟩
  | false =>
    rw [candidatesLetter long,pickedOnly] at only
    obtain ⟨rfl,known,same,_⟩ := only
    obtain rfl := beq_iff_eq.mp same
    have named := findNamed.mpr known
    obtain ⟨c,d,rest,whole⟩ : ∃ c d rest, arg.toList = '-' :: c :: d :: rest := by
      have long := (nameForms _ (nameFound named)).2.2
      obtain ⟨behind,whole⟩ := String.startsWith_string_iff.mp dashed
      rw [← whole] at long
      cases behind with
      | nil => simp at long
      | cons c behind =>
        cases behind with
        | nil =>
          have short : arg.toList.length ≤ 2 := by simp [← whole]
          rw [List.take_of_length_le short,String.ofList_toList] at named
          cases unnamed.symm.trans named
        | cons d rest => exact ⟨c,d,rest,whole.symm⟩
    rw [whole] at named ⊢
    refine .letter named whole ?_
    rintro rfl
    have assigned : Assigned arg (ofList ['-',c]) (ofList rest) :=
      ⟨by simpa using whole,by simpa [eq_comm] using (letterDashless named).2⟩
    cases (unvalued _ _ assigned).symm.trans named

theorem tokenOfCases {arg : String} {token : Token} (run : tokenOf g arg = .ok token) :
    Word g.names arg ∧ token = .word arg ∨
      (∃ o name attached, Spells g.names arg o name attached ∧ token = .option o name attached) ∨ token = .unknown arg := by
  unfold tokenOf at run
  split at run
  · rename_i dashless
    cases run
    exact .inl ⟨.plain (by rwa [Bool.not_eq_true'] at dashless),rfl⟩
  rename_i dashed
  split at run
  · rename_i o named
    cases run
    exact .inr (.inl ⟨_,_,_,.name named,rfl⟩)
  rename_i unnamed
  split at run
  · rename_i single
    cases run
    exact .inl ⟨.dash (beq_iff_eq.mp single),rfl⟩
  split at run
  · rename_i token exact
    obtain ⟨key,value,o,assigned,named,rfl⟩ := exactSome.mp exact
    cases run
    exact .inr (.inl ⟨_,_,_,.valued assigned named,rfl⟩)
  rename_i unvalued
  split at run
  · rename_i o name value only
    cases run
    exact .inr (.inl ⟨_,_,_,spellsMeant (by simpa using dashed) unnamed (exactNone.mp unvalued) only,rfl⟩)
  · rename_i none
    cases run
    split
    · rename_i shape
      exact .inl ⟨.unmeant (candidatesNone.mp none) shape,rfl⟩
    · exact .inr (.inr rfl)
  · cases run

theorem tokenOfWord {arg : String} (word : Word g.names arg) : tokenOf g arg = .ok (.word arg) := by
  cases word with
  | plain dashless => rw [tokenOf,if_pos (by rw [dashless]; rfl)]
  | dash single =>
    subst single
    have unnamed : g.find? "-" = none := rfl
    simp [tokenOf,unnamed]
  | unmeant unmeant shape =>
    have none := candidatesNone.mpr unmeant
    have unnamed : g.find? arg = .none :=
      Option.eq_none_iff_forall_ne_some.mpr (fun o named => namedMeant named none)
    have unvalued : exactValue? g arg = .none := exactNone.mpr (fun key value assigned =>
      Option.eq_none_iff_forall_ne_some.mpr (fun o named => valuedMeant assigned named none))
    rw [tokenOf,unnamed,unvalued,none,if_pos shape]
    simp

/- The mark could be any long name, so it is read as none. -/
theorem separatorUnread {token : Token} : tokenOf g separatorText ≠ .ok token := by
  have several : (candidates g separatorText).length = (nameTexts.filter (·.startsWith "--")).length := by
    rw [candidatesCut (by decide +kernel) (by decide),picked,List.length_map,← namesWritten (g := g),List.filter_map,
      List.length_map]
    rfl
  have many : (nameTexts.filter (·.startsWith "--")).length = 13 := by decide +kernel
  have unnamed : g.find? separatorText = none := rfl
  have unvalued : exactValue? g separatorText = none :=
    exactNone.mpr (fun key value assigned => absurd (assignedInside assigned) (by decide))
  rw [tokenOf,if_neg (by decide +kernel),unnamed,unvalued]
  match meant : candidates g separatorText with
  | [] | [_] => simp [meant,many] at several
  | _ :: _ :: _ => rintro ⟨⟩

end

end Retouch.Spelling

import Retouch.Proofs.Execution
import Retouch.Proofs.Separators
import Retouch.Revision

/-! Ranges of revisions as texts. A text is parted at its first two dots, a third dot right behind them belongs to the
separator, and an end that is left out has a revision that stands for it. -/
namespace Retouch.Ranges
open Execution Separators
open RevisionRange (splitAtDots oneLine? ofText parse)

def Dotted (text : String) : Prop := ['.','.'] <:+: text.toList

instance (text : String) : Decidable (Dotted text) := inferInstanceAs (Decidable (_ <:+: _))

/- A text around its first two dots. They are part of three exactly if a third dot follows. -/
structure Parted (text before separator after : String) : Prop where
  whole : text = before ++ separator ++ after
  first : ¬ Dotted (before ++ ".")
  dots : separator = "..." ∨ separator = ".." ∧ after.toList.head? ≠ some '.'

structure Apart (name : String) : Prop where
  filled : name ≠ ""
  oneLine : '\n' ∉ name.toList
  undotted : ¬ Dotted name
  start : name.toList.head? ≠ some '.'
  stop : name.toList.getLast? ≠ some '.'

theorem splitAtDotsFirst {before cs x y : List Char} : splitAtDots before cs = some (x,y) ↔
    ∃ inner, x = before.reverse ++ inner ∧ FirstPair '.' '.' cs inner y := by
  fun_induction splitAtDots before cs with
  | case1 before => simp [firstPairNil]
  | case2 before rest =>
    simp only [firstPairHere,Option.some.injEq,Prod.mk.injEq]
    constructor
    · rintro ⟨rfl,rfl⟩
      exact ⟨[],by simp,rfl,rfl⟩
    · rintro ⟨_,rfl,rfl,rfl⟩
      simp
  | case3 before c rest other ih =>
    simp only [ih,firstPairLater other,List.reverse_cons,List.append_assoc]
    constructor
    · rintro ⟨inner,rfl,split⟩
      exact ⟨c :: inner,rfl,inner,rfl,split⟩
    · rintro ⟨_,rfl,inner,rfl,split⟩
      exact ⟨inner,rfl,split⟩

theorem splitAtDotsNone {before cs : List Char} : splitAtDots before cs = none ↔ ¬ ['.','.'] <:+: cs := by
  fun_induction splitAtDots before cs with
  | case1 before => simp
  | case2 before rest =>
    have inside : ['.','.'] <:+: '.' :: '.' :: rest := (List.prefix_append ['.','.'] rest).isInfix
    simp [inside]
  | case3 before c rest other ih => rw [ih,pairLater other]

theorem oneLineWhole {cs : List Char} (oneLine : '\n' ∉ cs) : oneLine? cs = some cs := by
  have whole : cs.takeWhile (· != '\n') = cs := by
    rw [List.takeWhile_eq_self_iff]
    intro c member
    simp only [bne_iff_ne]
    rintro rfl
    exact oneLine member
  simp [oneLine?,whole]

theorem partedSplit {text before separator after : String} (parted : Parted text before separator after) :
    splitAtDots [] text.toList = some (before.toList,separator.toList.drop 2 ++ after.toList) := by
  obtain ⟨rfl,first,dots⟩ := parted
  refine splitAtDotsFirst.mpr ⟨before.toList,rfl,?_,by simpa [Dotted] using first⟩
  rcases dots with rfl | ⟨rfl,_⟩ <;> simp

theorem dottedParted {text : String} (dotted : Dotted text) :
    ∃ before separator after, Parted text before separator after := by
  cases split : splitAtDots [] text.toList with
  | none => exact absurd dotted (splitAtDotsNone.mp split)
  | some halves =>
    obtain ⟨_,after⟩ := halves
    obtain ⟨before,_,whole,first⟩ := splitAtDotsFirst.mp split
    have first : ¬ Dotted (String.ofList before ++ ".") := by simpa [Dotted] using first
    by_cases third : after.head? = some '.'
    · obtain ⟨more,rfl⟩ := List.head?_eq_some_iff.mp third
      exact ⟨_,"...",String.ofList more,String.toList_inj.mp (by simp [whole]),first,.inl rfl⟩
    · exact ⟨_,"..",String.ofList after,String.toList_inj.mp (by simp [whole]),first,.inr ⟨rfl,by simpa using third⟩⟩

theorem ofTextParted {text before separator after : String} (oneLine : '\n' ∉ text.toList)
    (parted : Parted text before separator after) :
    ofText text = ⟨if before = "" then "HEAD" else before,if after = "" then .workingTree else .named after,
      separator = "..."⟩ := by
  have split := partedSplit parted
  rw [ofText,oneLineWhole oneLine,Option.bind_some,split]
  rcases parted.dots with rfl | ⟨rfl,second⟩
  · simp [RevisionRange.headOr,Target.ofName]
  · split
    · rename_i third
      obtain ⟨_,third⟩ := Prod.mk.inj (Option.some.inj third)
      exact (second (by simpa using congrArg List.head? third)).elim
    · rename_i halves
      cases halves
      simp [RevisionRange.headOr,Target.ofName]
    · rename_i impossible
      cases impossible

theorem ofTextUndotted {text : String} (oneLine : '\n' ∉ text.toList) (undotted : ¬ Dotted text) :
    ofText text = ⟨if text = "" then "HEAD" else text,.workingTree,text ≠ "" ∧ text ≠ "HEAD"⟩ := by
  rw [ofText,oneLineWhole oneLine,Option.bind_some,splitAtDotsNone.mpr undotted]
  have ancestor : (text != "" && text != "HEAD") = decide (text ≠ "" ∧ text ≠ "HEAD") := by
    rw [Bool.eq_iff_iff]
    simp
  rw [ancestor]
  simp [RevisionRange.headOr]

theorem execParse {text : String} (plain : text ≠ preCommitName) (tools : Tools) (s : Session) :
    exec (parse text) tools s = (.ok (ofText text),s) := by
  have other : (text == preCommitName) = false := by simpa using plain
  simp only [parse,other,Bool.false_eq_true,if_false]
  rfl

theorem apartParted {name separator after : String} (apart : Apart name)
    (dots : separator = "..." ∨ separator = ".." ∧ after.toList.head? ≠ some '.') :
    Parted (name ++ separator ++ after) name separator after := by
  refine ⟨rfl,fun dotted => ?_,dots⟩
  have inside : ['.'] ++ ['.'] <:+: name.toList ++ ['.'] := by simpa [Dotted] using dotted
  rcases List.infix_concat_iff.mp inside with ends | earlier
  · obtain ⟨more,same⟩ := ends
    rw [← List.append_assoc] at same
    refine apart.stop ?_
    rw [← List.append_cancel_right same]
    simp
  · exact apart.undotted earlier

theorem partedDotted {text before separator after : String} (parted : Parted text before separator after) : Dotted text := by
  obtain ⟨rfl,_,dots⟩ := parted
  refine ⟨before.toList,separator.toList.drop 2 ++ after.toList,?_⟩
  rcases dots with rfl | ⟨rfl,_⟩ <;> simp

theorem parsedParted {text before separator after : String} (oneLine : '\n' ∉ text.toList)
    (parted : Parted text before separator after) (tools : Tools) (s : Session) :
    exec (parse text) tools s = (.ok ⟨if before = "" then "HEAD" else before,
      if after = "" then .workingTree else .named after,separator = "..."⟩,s) := by
  have plain : text ≠ preCommitName := by
    rintro rfl
    exact absurd (partedDotted parted) (by decide)
  rw [execParse plain,ofTextParted oneLine parted]

theorem rangePartedAtFirstDots (tools : Tools) (s : Session) :
    (∀ text : String, '\n' ∉ text.toList → text ≠ preCommitName →
      (Dotted text → ∃ before separator after, Parted text before separator after) ∧
      (∀ before separator after, Parted text before separator after →
        exec (parse text) tools s = (.ok ⟨if before = "" then "HEAD" else before,
          if after = "" then .workingTree else .named after,separator = "..."⟩,s)) ∧
      (¬ Dotted text → exec (parse text) tools s =
        (.ok ⟨if text = "" then "HEAD" else text,.workingTree,text ≠ "" ∧ text ≠ "HEAD"⟩,s))) ∧
    (∀ source target, Apart source → Apart target →
      exec (parse (source ++ ".." ++ target)) tools s = (.ok ⟨source,.named target,false⟩,s) ∧
      exec (parse (source ++ "..." ++ target)) tools s = (.ok ⟨source,.named target,true⟩,s)) ∧
    (∀ source, Apart source → source ≠ "HEAD" → source ≠ preCommitName →
      exec (parse source) tools s = exec (parse (source ++ "...")) tools s) := by
  refine ⟨fun text oneLine plain => ⟨dottedParted,fun _ _ _ parted => parsedParted oneLine parted tools s,?_⟩,?_,?_⟩
  · intro undotted
    rw [execParse plain,ofTextUndotted oneLine undotted]
  · intro source target begins ends
    have oneLine : '\n' ∉ (source ++ ".." ++ target).toList := by simp [begins.oneLine,ends.oneLine]
    have oneLine' : '\n' ∉ (source ++ "..." ++ target).toList := by simp [begins.oneLine,ends.oneLine]
    rw [parsedParted oneLine (apartParted begins (.inr ⟨rfl,ends.start⟩)),parsedParted oneLine' (apartParted begins (.inl rfl))]
    simp [begins.filled,ends.filled]
  · intro source apart other plain
    have oneLine : '\n' ∉ (source ++ "...").toList := by simp [apart.oneLine]
    have parted : Parted (source ++ "...") source "..." "" := by
      simpa using @apartParted source "..." "" apart (.inl rfl)
    rw [parsedParted oneLine parted,execParse plain,ofTextUndotted apart.oneLine apart.undotted]
    simp [apart.filled,other]

end Retouch.Ranges

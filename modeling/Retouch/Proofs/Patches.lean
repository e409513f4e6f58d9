import Retouch.Proofs.Diagonal
import Retouch.Proofs.Preview
import Retouch.Proofs.Separators
import Retouch.Proofs.Stretches

/-! Unified diffs as patches. A reader takes the ranges of a hunk from its header and as many lines as they say, so it needs
no other sign for the end of a hunk. Whatever is printed for two documents is read back as hunks in order, each of which
stands in the old lines where its header says; putting their new lines there gives the new document. -/
namespace Retouch.Patches
open Execution Script Stretches
open String (ofList)

structure Range where
  number : Nat
  count : Nat
  deriving DecidableEq, Repr

namespace Range

def start (r : Range) : Nat := if r.count = 0 then r.number else r.number - 1

def stop (r : Range) : Nat := r.start + r.count

end Range

inductive Mark where
  | kept
  | dropped
  | added
  deriving DecidableEq, Repr

namespace Mark

def sign : Mark → Char
  | kept => ' '
  | dropped => '-'
  | added => '+'

def inOld : Mark → Nat
  | added => 0
  | _ => 1

def inNew : Mark → Nat
  | dropped => 0
  | _ => 1

end Mark

abbrev MarkedLine := Mark × String

def before (body : List MarkedLine) : List String := (body.filter (fun l => l.1 != .added)).map Prod.snd

def after (body : List MarkedLine) : List String := (body.filter (fun l => l.1 != .dropped)).map Prod.snd

structure Hunk where
  old : Range
  new : Range
  body : List MarkedLine
  deriving DecidableEq, Repr

def readRange? (cs : List Char) : Option Range :=
  match (cs.splitOn ',').map (fun digits => (ofList digits).toNat?) with
  | [some number] => some ⟨number,1⟩
  | [some number,some count] => some ⟨number,count⟩
  | _ => none

def readHeader? (line : String) : Option (Range × Range) :=
  match line.toList.splitOn ' ' with
  | [['@','@'],'-' :: old,'+' :: new,['@','@']] =>
    match readRange? old,readRange? new with
    | some r,some r' => some (r,r')
    | _,_ => none
  | _ => none

def readMarked? (line : String) : Option MarkedLine :=
  match line.toList with
  | ' ' :: cs => some (.kept,ofList cs)
  | '-' :: cs => some (.dropped,ofList cs)
  | '+' :: cs => some (.added,ofList cs)
  | _ => none

def readHunks (o n : Nat) : List String → Option (List MarkedLine × List Hunk)
  | [] => if o = 0 ∧ n = 0 then some ([],[]) else none
  | line :: rest =>
    if o = 0 ∧ n = 0 then
      match readHeader? line with
      | some (old,new) => (readHunks old.count new.count rest).map (fun (body,hunks) => ([],⟨old,new,body⟩ :: hunks))
      | none => none
    else
      match readMarked? line with
      | some l =>
        if l.1.inOld ≤ o ∧ l.1.inNew ≤ n then
          (readHunks (o - l.1.inOld) (n - l.1.inNew) rest).map (fun (body,hunks) => (l :: body,hunks))
        else none
      | none => none

def readPatch? (text : String) : Option (List Hunk) :=
  let lines := (text.toList.splitOn '\n').map ofList
  if lines.getLast? = some "" then (readHunks 0 0 lines.dropLast).map Prod.snd else none

def patched (old : List String) (i : Nat) : List Hunk → List String
  | [] => old.drop i
  | h :: rest => (old.take h.old.start).drop i ++ after h.body ++ patched old h.old.stop rest

structure Patch (old new : List String) (hunks : List Hunk) : Prop where
  filled : hunks ≠ []
  apart : hunks.Pairwise (fun h h' => h.old.stop < h'.old.start ∧ h.new.stop < h'.new.start)
  placed : ∀ h ∈ hunks, before h.body = (old.drop h.old.start).take h.old.count ∧
    after h.body = (new.drop h.new.start).take h.new.count
  leads : patched old 0 hunks = new

def rangeOf (a b : Nat) : Range := if a = b then ⟨a,0⟩ else ⟨a + 1,b - a⟩

theorem rangeOfStart {a b : Nat} (le : a ≤ b) : (rangeOf a b).start = a := by
  unfold rangeOf Range.start
  split
  · rfl
  · dsimp only
    split <;> omega

theorem rangeOfCount (a b : Nat) : (rangeOf a b).count = b - a := by
  unfold rangeOf
  split
  · simp only
    omega
  · rfl

def numbersOf (a b : Nat) : List Nat := if b = a + 1 then [a + 1] else if a = b then [a,0] else [a + 1,b - a]

theorem rangeWritten {a b : Nat} (le : a ≤ b) : Unified.range a b = ",".intercalate ((numbersOf a b).map toString) := by
  unfold Unified.range numbersOf
  by_cases one : b = a + 1
  · subst one
    simp
    rfl
  · by_cases none : a = b
    · subst none
      simp [String.append_assoc]
      rfl
    · have other : ((b : Int) - a == 1) = false ∧ ((b : Int) - a == 0) = false := by
        simp
        omega
      rw [other.1,other.2,if_neg one,if_neg none]
      have difference : (b : Int) - a = ((b - a : Nat) : Int) := by omega
      rw [difference]
      rfl

theorem digitsOnly {n : Nat} {c : Char} (member : c ∈ (toString n).toList) : c.isDigit = true := by
  rw [Nat.toString_eq_ofList_toDigits,String.toList_ofList] at member
  exact Nat.isDigit_of_mem_toDigits (by decide) (by decide) member

theorem memIntercalate {c s : Char} {pieces : List (List Char)} (member : c ∈ [s].intercalate pieces) :
    c = s ∨ ∃ piece ∈ pieces, c ∈ piece := by
  induction pieces with
  | nil => simp at member
  | cons piece pieces ih =>
    cases pieces with
    | nil => exact .inr ⟨piece,by simp,by simpa using member⟩
    | cons next rest =>
      rw [List.intercalate_cons_cons,List.mem_append,List.mem_append] at member
      rcases member with (inside | mark) | later
      · exact .inr ⟨piece,by simp,inside⟩
      · exact .inl (by simpa using mark)
      · rcases ih later with mark | ⟨other,listed,inside⟩
        · exact .inl mark
        · exact .inr ⟨other,by simp [listed],inside⟩

theorem rangeLacks {a b : Nat} (le : a ≤ b) {c : Char} (other : c ≠ ',' ∧ c.isDigit = false) :
    c ∉ (Unified.range a b).toList := by
  rw [rangeWritten le,String.toList_intercalate]
  intro member
  rcases memIntercalate member with comma | ⟨piece,listed,inside⟩
  · exact other.1 comma
  · simp only [List.map_map,List.mem_map] at listed
    obtain ⟨n,_,rfl⟩ := listed
    exact absurd (digitsOnly inside) (by simp [other.2])

theorem rangeRead {a b : Nat} (le : a ≤ b) : readRange? (Unified.range a b).toList = some (rangeOf a b) := by
  have numbers : ((Unified.range a b).toList.splitOn ',').map (fun digits => (ofList digits).toNat?) =
      (numbersOf a b).map some := by
    rw [rangeWritten le,String.toList_intercalate]
    change (([','].intercalate _).splitOn ',').map _ = _
    rw [List.splitOn_intercalate ',']
    · simp only [List.map_map]
      refine List.map_congr_left (fun n _ => ?_)
      simp only [Function.comp_apply,String.ofList_toList]
      exact Nat.toNat?_repr n
    · simp only [List.mem_map]
      rintro _ ⟨_,⟨n,_,rfl⟩,rfl⟩ comma
      exact absurd (digitsOnly comma) (by decide)
    · unfold numbersOf
      split
      · simp
      · split <;> simp
  unfold readRange? rangeOf
  rw [numbers]
  unfold numbersOf
  by_cases one : b = a + 1
  · subst one
    simp
  · by_cases none : a = b
    · subst none
      simp
    · simp [one,none]

def headerOf (i k j l : Nat) : String := s!"@@ -{Unified.range i k} +{Unified.range j l} @@"

theorem headerPieces (a a' b b' : Nat) : (headerOf a a' b b').toList = [' '].intercalate
    [['@','@'],'-' :: (Unified.range a a').toList,'+' :: (Unified.range b b').toList,['@','@']] := by
  simp only [headerOf,toString,String.toList_append,List.intercalate_cons_cons]
  simp

theorem headerRead {a a' b b' : Nat} (le : a ≤ a') (le' : b ≤ b') :
    readHeader? (headerOf a a' b b') = some (rangeOf a a',rangeOf b b') := by
  have blankless {x y : Nat} (le : x ≤ y) : ' ' ∉ (Unified.range x y).toList := rangeLacks le (by decide)
  unfold readHeader?
  rw [headerPieces,List.splitOn_intercalate ' ' (by simp [blankless le,blankless le']) (by simp)]
  simp only [rangeRead le,rangeRead le']

theorem headerClean {a a' b b' : Nat} (le : a ≤ a') (le' : b ≤ b') : '\n' ∉ (headerOf a a' b b').toList := by
  have fedless {x y : Nat} (le : x ≤ y) : '\n' ∉ (Unified.range x y).toList := rangeLacks le (by decide)
  rw [headerPieces]
  intro member
  rcases memIntercalate member with blank | ⟨piece,listed,inside⟩
  · exact absurd blank (by decide)
  · simp only [List.mem_cons,List.not_mem_nil,or_false] at listed
    rcases listed with rfl | rfl | rfl | rfl
    · simp at inside
    · simp [fedless le] at inside
    · simp [fedless le'] at inside
    · simp at inside

def shown (l : MarkedLine) : String := ofList (l.1.sign :: l.2.toList)

theorem shownRead (l : MarkedLine) : readMarked? (shown l) = some l := by
  obtain ⟨mark,line⟩ := l
  cases mark <;> simp [readMarked?,shown,Mark.sign]

def marked (old new : List String) (e : Edit) : List MarkedLine :=
  match e.kind with
  | .equal => (slice old e.oldStart e.oldStop).map (Prod.mk .kept)
  | .replace =>
    (slice old e.oldStart e.oldStop).map (Prod.mk .dropped) ++ (slice new e.newStart e.newStop).map (Prod.mk .added)
  | .delete => (slice old e.oldStart e.oldStop).map (Prod.mk .dropped)
  | .insert => (slice new e.newStart e.newStop).map (Prod.mk .added)
  | .other _ => []

theorem bodyShown (old new : List String) (e : Edit) : Unified.body old new e = (marked old new e).map shown := by
  have signed (mark : Mark) (lines : List String) :
      (lines.map (Prod.mk mark)).map shown = lines.map (String.singleton mark.sign ++ ·) := by
    rw [List.map_map]
    refine List.map_congr_left (fun line _ => ?_)
    apply String.toList_injective
    simp [shown]
  unfold Unified.body marked
  cases e.kind with
  | equal => exact (signed .kept _).symm
  | replace =>
    rw [List.map_append]
    exact (congrArg₂ (· ++ ·) (signed .dropped _) (signed .added _)).symm
  | delete => exact (signed .dropped _).symm
  | insert => exact (signed .added _).symm
  | other _ => rfl

theorem beforeMarked (mark : Mark) (lines : List String) :
    before (lines.map (Prod.mk mark)) = if mark = .added then [] else lines := by
  cases mark <;> simp [before,List.filter_map,Function.comp_def]

theorem afterMarked (mark : Mark) (lines : List String) :
    after (lines.map (Prod.mk mark)) = if mark = .dropped then [] else lines := by
  cases mark <;> simp [after,List.filter_map,Function.comp_def]

theorem beforeAppend (xs ys : List MarkedLine) : before (xs ++ ys) = before xs ++ before ys := by simp [before]

theorem afterAppend (xs ys : List MarkedLine) : after (xs ++ ys) = after xs ++ after ys := by simp [after]

variable {old new : List String}

theorem markedSlices {e : Edit} (shaped : Shaped old new e) : before (marked old new e) = slice old e.oldStart e.oldStop ∧
    after (marked old new e) = slice new e.newStart e.newStop := by
  have nothing {xs : List String} {lo hi : Int} (same : lo = hi) : slice xs lo hi = [] := by
    rw [same]
    simp [slice]
  unfold Shaped at shaped
  unfold marked
  cases kind : e.kind with
  | equal =>
    rw [kind] at shaped
    simp [beforeMarked,afterMarked,shaped.2.2]
  | replace => simp [beforeAppend,afterAppend,beforeMarked,afterMarked]
  | delete =>
    rw [kind] at shaped
    simp [beforeMarked,afterMarked,nothing shaped.2]
  | insert =>
    rw [kind] at shaped
    simp [beforeMarked,afterMarked,nothing shaped.1]
  | other name =>
    rw [kind] at shaped
    exact shaped.elim

theorem markedListed {l : MarkedLine} {e : Edit} (member : l ∈ marked old new e) : l.2 ∈ old ++ new := by
  have inside {xs : List String} {lo hi : Int} {line : String} (found : line ∈ slice xs lo hi) : line ∈ xs :=
    List.mem_of_mem_take (List.mem_of_mem_drop found)
  unfold marked at member
  split at member
  all_goals
    simp only [List.mem_map,List.mem_append,List.not_mem_nil] at member
  · obtain ⟨line,found,rfl⟩ := member
    simp [inside found]
  · rcases member with ⟨line,found,rfl⟩ | ⟨line,found,rfl⟩ <;> simp [inside found]
  · obtain ⟨line,found,rfl⟩ := member
    simp [inside found]
  · obtain ⟨line,found,rfl⟩ := member
    simp [inside found]

theorem stepsMarked {a b a' b' : Nat} {group : List Edit} (steps : Steps old new a b group a' b') :
    before (group.flatMap (marked old new)) = slice old a a' ∧ after (group.flatMap (marked old new)) = slice new b b' := by
  induction steps with
  | nil => simp [before,after,sliceNat]
  | cons shaped tail ih =>
    obtain ⟨up,up'⟩ := shapedForward shaped
    have bounds := stepsBounds tail
    obtain ⟨here,here'⟩ := markedSlices shaped
    rw [List.flatMap_cons,beforeAppend,afterAppend,here,here',ih.1,ih.2]
    exact ⟨sliceJoin up bounds.1,sliceJoin up' bounds.2.1⟩

theorem stepsEnds {a b a' b' : Nat} {group : List Edit} (steps : Steps old new a b group a' b') (filled : group ≠ []) :
    ∃ first last, group.head? = some first ∧ group.getLast? = some last ∧ first.oldStart = a ∧ first.newStart = b ∧
      last.oldStop = a' ∧ last.newStop = b' := by
  induction steps with
  | nil => exact absurd rfl filled
  | @cons kind i k j l rest i' j' shaped tail ih =>
    cases rest with
    | nil =>
      cases tail
      exact ⟨_,_,rfl,rfl,rfl,rfl,rfl,rfl⟩
    | cons f rest =>
      obtain ⟨_,last,_,ends,_,_,stop,stop'⟩ := ih (by simp)
      exact ⟨_,last,rfl,by rw [List.getLast?_cons_cons]; exact ends,rfl,rfl,stop,stop'⟩

theorem hunkShown {a b a' b' : Nat} {group : List Edit} (steps : Steps old new a b group a' b') (filled : group ≠ []) :
    Unified.hunk old new group = headerOf a a' b b' :: (group.flatMap (marked old new)).map shown := by
  obtain ⟨first,last,head,ends,start,start',stop,stop'⟩ := stepsEnds steps filled
  unfold Unified.hunk
  rw [head,ends]
  dsimp only
  rw [start,start',stop,stop',List.map_flatMap]
  simp only [← bodyShown]
  rfl

theorem bodyRead (body : List MarkedLine) {rest : List String} {hunks : List Hunk}
    (behind : readHunks 0 0 rest = some ([],hunks)) :
    readHunks (before body).length (after body).length (body.map shown ++ rest) = some (body,hunks) := by
  induction body with
  | nil => exact behind
  | cons l body ih =>
    have sizes : (before (l :: body)).length = l.1.inOld + (before body).length ∧
        (after (l :: body)).length = l.1.inNew + (after body).length ∧ 0 < l.1.inOld + l.1.inNew := by
      obtain ⟨mark,line⟩ := l
      cases mark <;> simp [before,after,Mark.inOld,Mark.inNew] <;> omega
    obtain ⟨old,new,some⟩ := sizes
    rw [List.map_cons,List.cons_append,readHunks,if_neg (by omega),shownRead]
    dsimp only
    rw [if_pos (by omega),old,new,Nat.add_sub_cancel_left,Nat.add_sub_cancel_left,ih]
    rfl

structure ReadBack (old new : List String) (gap i j : Nat) (lines : List String) (hunks : List Hunk) : Prop where
  read : readHunks 0 0 lines = some ([],hunks)
  away : ∀ h ∈ hunks, i + gap ≤ h.old.start ∧ j + gap ≤ h.new.start
  apart : hunks.Pairwise (fun h h' => h.old.stop < h'.old.start ∧ h.new.stop < h'.new.start)
  placed : ∀ h ∈ hunks, before h.body = (old.drop h.old.start).take h.old.count ∧
    after h.body = (new.drop h.new.start).take h.new.count
  leads : patched old i hunks = new.drop j

theorem coversRead {gap i j : Nat} {groups : List (List Edit)} (covers : Covers old new gap i j groups) :
    ∃ hunks, ReadBack old new gap i j (groups.flatMap (Unified.hunk old new)) hunks ∧ hunks.length = groups.length := by
  induction covers with
  | done same => exact ⟨[],⟨rfl,nofun,.nil,nofun,same⟩,rfl⟩
  | @group gap i j a b a' b' group rest away away' skipped filled steps later ih =>
    obtain ⟨hunks,back,size⟩ := ih
    obtain ⟨up,up',inside,inside'⟩ := stepsBounds steps
    obtain ⟨old',new'⟩ := stepsMarked steps
    have count := rangeOfCount a a'
    have count' := rangeOfCount b b'
    have stop : (rangeOf a a').stop = a' := by rw [Range.stop,rangeOfStart up,count]; omega
    have stop' : (rangeOf b b').stop = b' := by rw [Range.stop,rangeOfStart up',count']; omega
    have lengths : (before (group.flatMap (marked old new))).length = (rangeOf a a').count ∧
        (after (group.flatMap (marked old new))).length = (rangeOf b b').count := by
      rw [old',new',sliceLength inside,sliceLength inside',count,count']
      exact ⟨rfl,rfl⟩
    refine ⟨⟨rangeOf a a',rangeOf b b',group.flatMap (marked old new)⟩ :: hunks,⟨?_,?_,?_,?_,?_⟩,by simp [size]⟩
    · rw [List.flatMap_cons,hunkShown steps filled,List.cons_append,readHunks,if_pos ⟨rfl,rfl⟩,headerRead up up']
      dsimp only
      rw [← lengths.1,← lengths.2,bodyRead _ back.read]
      rfl
    · rw [List.forall_mem_cons]
      refine ⟨by simpa [rangeOfStart up,rangeOfStart up'] using ⟨away,away'⟩,fun h member => ?_⟩
      have further := back.away h member
      omega
    · refine List.pairwise_cons.mpr ⟨fun h member => ?_,back.apart⟩
      have further := back.away h member
      dsimp only
      omega
    · rw [List.forall_mem_cons]
      refine ⟨?_,back.placed⟩
      dsimp only
      rw [old',new',rangeOfStart up,rangeOfStart up',count,count',sliceNat,sliceNat,List.drop_take,List.drop_take]
      exact ⟨rfl,rfl⟩
    · rw [patched]
      dsimp only
      rw [rangeOfStart up,stop,new',back.leads,← sliceNat,skipped,List.append_assoc,sliceDrop up',sliceDrop (by omega)]

theorem hunksClean {gap i j : Nat} {groups : List (List Edit)} (covers : Covers old new gap i j groups)
    (clean : ∀ line ∈ old ++ new, '\n' ∉ line.toList) :
    ∀ line ∈ groups.flatMap (Unified.hunk old new), '\n' ∉ line.toList := by
  induction covers with
  | done => simp
  | group away away' skipped filled steps later ih =>
    obtain ⟨up,up',_⟩ := stepsBounds steps
    rw [List.flatMap_cons,hunkShown steps filled]
    intro line member
    rcases List.mem_append.mp member with here | behind
    · rcases List.mem_cons.mp here with rfl | body
      · exact headerClean up up'
      · obtain ⟨l,found,rfl⟩ := List.mem_map.mp body
        obtain ⟨e,_,shows⟩ := List.mem_flatMap.mp found
        have fedless := clean l.2 (markedListed shows)
        obtain ⟨mark,line⟩ := l
        cases mark <;> simpa [shown,Mark.sign] using fedless
    · exact ih line behind

def unfed (line : String) : String := ofList (line.toList.reverse.dropWhile (· == '\n')).reverse

theorem unfedClean {line : String} (clean : '\n' ∉ line.toList) : unfed line = line := by
  have kept : line.toList.reverse.dropWhile (· == '\n') = line.toList.reverse := by
    cases cs : line.toList.reverse with
    | nil => rfl
    | cons c rest =>
      have other : c ≠ '\n' := by
        rintro rfl
        exact clean (List.mem_reverse.mp (by rw [cs]; simp))
      rw [List.dropWhile_cons_of_neg (by simpa using other)]
  rw [unfed,kept,List.reverse_reverse,String.ofList_toList]

theorem unfedTitle (sign : Char) (name : String) :
    unfed (ofList [sign,sign,sign,' '] ++ name) = ofList [sign,sign,sign,' '] ++ unfed name := by
  apply String.toList_injective
  simp only [unfed,String.toList_append,String.toList_ofList,List.reverse_append,List.dropWhile_append]
  split
  · rename_i empty
    simp [List.isEmpty_iff.mp empty]
  · simp

theorem joinLinesPieces (lines : List String) :
    (joinLines lines).toList = ['\n'].intercalate (lines.map String.toList ++ [[]]) := by
  induction lines with
  | nil => rfl
  | cons line rest ih =>
    have whole : (joinLines (line :: rest)).toList = line.toList ++ '\n' :: (joinLines rest).toList := by
      simp [joinLines,String.join_cons]
    rw [whole,ih,List.map_cons,List.cons_append,List.intercalate_cons_of_ne_nil (by simp)]
    simp

theorem patchRead {lines : List String} (clean : ∀ line ∈ lines, '\n' ∉ line.toList) :
    readPatch? (joinLines lines) = (readHunks 0 0 lines).map Prod.snd := by
  have pieces : ∀ piece ∈ lines.map String.toList ++ [[]], '\n' ∉ piece := by
    intro piece member
    rcases List.mem_append.mp member with mapped | last
    · obtain ⟨line,listed,rfl⟩ := List.mem_map.mp mapped
      exact clean line listed
    · simp [List.mem_singleton.mp last]
  unfold readPatch?
  rw [joinLinesPieces,List.splitOn_intercalate '\n' pieces (by simp)]
  simp [Function.comp_def]

theorem renderedSame (name : String) (lines : List String) : Unified.render name lines lines ++ "\n" = "\n" := by
  rw [Unified.render,Diagonal.linesSelf]
  rfl

def title (name : String) : String := joinLines ["--- " ++ unfed name,"+++ " ++ unfed name]

theorem renderedTitle (name : String) (lines : List String) :
    joinLines (unfed ("--- " ++ name) :: unfed ("+++ " ++ name) :: lines) = title name ++ joinLines lines := by
  have first := unfedTitle '-' name
  have second := unfedTitle '+' name
  rw [show "--- " ++ name = ofList ['-','-','-',' '] ++ name from rfl,
    show "+++ " ++ name = ofList ['+','+','+',' '] ++ name from rfl,first,second]
  apply String.toList_injective
  simp [title,joinLines,String.join_cons]

theorem renderedPatch (name : String) (clean : ∀ line ∈ old ++ new, '\n' ∉ line.toList) (differ : old ≠ new) :
    ∃ body hunks, Unified.render name old new ++ "\n" = title name ++ body ∧ readPatch? body = some hunks ∧
      Patch old new hunks := by
  obtain ⟨leads,_⟩ := matcherLeads (Hunks.popularIndexed old new)
  rw [(Hunks.popularSame old new).1,(Hunks.popularSame old new).2] at leads
  have covers : Covers old new 0 0 0 (Unified.groups (Matcher.skippingPopular old new).edits) := groupsCover leads
  obtain ⟨hunks,back,size⟩ := coversRead covers
  have fedless := hunksClean covers clean
  generalize shows : Unified.groups (Matcher.skippingPopular old new).edits = groups at back size fedless
  have busy : groups ≠ [] := by
    rintro rfl
    have unshown : Unified.lines name old new = [] := by rw [Unified.lines,shows]
    exact differ (Hunks.unshownSame unshown)
  have lines : Unified.lines name old new =
      ("--- " ++ name) :: ("+++ " ++ name) :: groups.flatMap (Unified.hunk old new) := by
    rw [Unified.lines,shows]
    cases groups with
    | nil => exact absurd rfl busy
    | cons group rest => rfl
  have kept : (groups.flatMap (Unified.hunk old new)).map unfed = groups.flatMap (Unified.hunk old new) :=
    (List.map_congr_left (fun line member => unfedClean (fedless line member))).trans (List.map_id _)
  refine ⟨joinLines (groups.flatMap (Unified.hunk old new)),hunks,?_,?_,?_,back.apart,back.placed,back.leads⟩
  · change "\n".intercalate ((Unified.lines name old new).map unfed) ++ "\n" = _
    rw [lines,Preview.intercalateEnded (by simp),List.map_cons,List.map_cons,kept,renderedTitle]
  · rw [patchRead fedless,back.read]
    rfl
  · rw [ne_eq,← List.length_eq_zero_iff,size,List.length_eq_zero_iff]
    exact busy

theorem execPrintDiff {path relative : Path} {tools : Tools} {s : Session}
    (below : (Path.resolve s.cwd path).relativeTo? s.cwd = some relative) (piped : tools.terminal.interactive = false)
    (old new : Document) : exec (Program.printDiff path old new) tools s =
      (.ok (),{ s with out := s.out ++ (Unified.render relative.render old.lines new.lines ++ "\n") }) := by
  rw [Program.printDiff,execBindOk (execGet tools s)]
  dsimp only
  rw [below]
  change exec (read >>= fun tools => Run.print _) tools s = _
  rw [execBindOk (execRead tools s),piped]
  rfl

theorem printedDiffPatches (path relative : Path) (tools : Tools) (s : Session) (old new : Document)
    (below : (Path.resolve s.cwd path).relativeTo? s.cwd = some relative) (piped : tools.terminal.interactive = false)
    (clean : ∀ line ∈ old.lines ++ new.lines, '\n' ∉ line.toList) :
    ∃ text, exec (Program.printDiff path old new) tools s = (.ok (),{ s with out := s.out ++ text }) ∧
      (text = "\n" ↔ old.lines = new.lines) ∧
      (old.lines ≠ new.lines → ∃ body hunks, text = title relative.render ++ body ∧ readPatch? body = some hunks ∧
        Patch old.lines new.lines hunks) := by
  refine ⟨_,execPrintDiff below piped old new,⟨fun blank => ?_,fun same => ?_⟩,renderedPatch relative.render clean⟩
  · by_contra differ
    obtain ⟨body,_,text,_⟩ := renderedPatch relative.render clean differ
    have titled := congrArg String.toList (text.symm.trans blank)
    simp [title,joinLines,String.join_cons] at titled
  · rw [same]
    exact renderedSame relative.render new.lines

theorem shortenedPrinted :
    ∃ text, exec (Program.printDiff (Path.ofString "a.py") (.ofLines ["a=1","b","c"]) (.ofLines ["a = 1","b"]))
        Rewriting.returnTools Rewriting.returnSession = (.ok (),{ Rewriting.returnSession with out := text }) ∧
      ∃ body hunks, text = "--- a.py\n+++ a.py\n" ++ body ∧ readPatch? body = some hunks ∧
        Patch ["a=1","b","c"] ["a = 1","b"] hunks := by
  obtain ⟨text,run,_,shows⟩ := printedDiffPatches (Path.ofString "a.py") ⟨.relative,["a.py"]⟩ Rewriting.returnTools
    Rewriting.returnSession (.ofLines ["a=1","b","c"]) (.ofLines ["a = 1","b"]) (by decide +kernel) rfl (by decide)
  obtain ⟨body,hunks,whole,patch⟩ := shows (by decide)
  refine ⟨text,run.trans ?_,body,hunks,whole.trans rfl,patch⟩
  rw [show Rewriting.returnSession.out ++ text = text from String.empty_append]

end Retouch.Patches

import Retouch.Config
import Retouch.Proofs.Execution
import Retouch.Proofs.Lookup

/-! Settings written as text. The bound that the writer is given is large enough, so a larger one changes nothing;
and an entry whose value is plain or empty can be left out without changing whether, or how, the writer fails. -/
namespace Retouch.Dumping
open Execution Lookup Toml

theorem foldlMSame {f g : β → α → Except ε β} (xs : List α) (b : β) (same : ∀ b, ∀ x ∈ xs, f b x = g b x) :
    xs.foldlM f b = xs.foldlM g b := by
  induction xs generalizing b with
  | nil => rfl
  | cons x xs ih =>
    rw [List.foldlM_cons,List.foldlM_cons,same b x (by simp)]
    exact bind_congr (fun c => ih c (fun b y member => same b y (by simp [member])))

theorem mapMSame {f g : α → Except ε β} (xs : List α) (same : ∀ x ∈ xs, f x = g x) : xs.mapM f = xs.mapM g := by
  induction xs with
  | nil => rfl
  | cons x xs ih =>
    rw [List.mapM_cons,List.mapM_cons,same x (by simp),ih (fun y member => same y (by simp [member]))]

theorem weightItem {items : List Value} {v : Value} (member : v ∈ items) : weight v ≤ weightAll items := by
  induction items with
  | nil => cases member
  | cons w rest ih =>
    rw [weightAll]
    rcases List.mem_cons.mp member with rfl | later
    · omega
    · have := ih later
      omega

theorem weightEntry {entries : Settings} {e : String × Value} (member : e ∈ entries) :
    weight e.2 ≤ weightEntries entries := by
  induction entries with
  | nil => cases member
  | cons w rest ih =>
    obtain ⟨key,v⟩ := w
    rw [weightEntries]
    rcases List.mem_cons.mp member with rfl | later
    · exact Nat.le_add_right _ _
    · have := ih later
      omega

theorem weightOwn {v : Value} {entries : Settings} (found : entriesOf v = .ok entries) :
    weightEntries entries + 1 ≤ weight v := by
  unfold entriesOf at found
  split at found
  · cases found
    simp [weight]
  · cases found
    simp [weight,weightEntries]
  · cases found
    simp [weight,weightEntries]
  · cases found

theorem weightPut {s : Settings} (key : String) (v : Value) (distinct : (s.map Prod.fst).Nodup) :
    weightEntries (s.put key v) ≤ weightEntries s + weight v := by
  have replaced : weightEntries (s.map (fun e => if e.1 == key then (key,v) else e)) ≤ weightEntries s + weight v := by
    induction s with
    | nil => simp [weightEntries]
    | cons e rest ih =>
      obtain ⟨here,held⟩ := e
      rw [List.map_cons,List.nodup_cons] at distinct
      by_cases same : here = key
      · have others : rest.map (fun e => if e.1 == key then (key,v) else e) = rest := by
          refine (List.map_congr_left (fun e member => ?_)).trans (List.map_id rest)
          have apart : e.1 ≠ key := by
            intro again
            exact distinct.1 (List.mem_map.mpr ⟨e,member,again.trans same.symm⟩)
          simp [apart]
        rw [List.map_cons,others]
        simp only [same,beq_self_eq_true,if_true,weightEntries]
        omega
      · have := ih distinct.2
        rw [List.map_cons]
        simp only [beq_eq_false_iff_ne.mpr same,Bool.false_eq_true,if_false,weightEntries]
        omega
  have appended (entries : Settings) : weightEntries (entries ++ [(key,v)]) = weightEntries entries + weight v := by
    induction entries with
    | nil => simp [weightEntries]
    | cons e rest ih =>
      obtain ⟨here,held⟩ := e
      rw [List.cons_append,weightEntries,weightEntries,ih]
      omega
  unfold Settings.put
  split
  · exact replaced
  · exact Nat.le_of_eq (appended s)

structure Gathered (s : Settings) (bound : Nat) : Prop where
  distinct : (s.map Prod.fst).Nodup
  light : weightEntries s ≤ bound

theorem gatheredPut {s : Settings} {bound : Nat} (h : Gathered s bound) (key : String) (v : Value) :
    Gathered (s.put key v) (bound + weight v) :=
  ⟨keysPut key v h.distinct,Nat.le_trans (weightPut key v h.distinct) (Nat.add_le_add_right h.light _)⟩

def deepen (name : String) (deeper inner : Settings) : Settings :=
  inner.foldl (fun d e => d.put (name ++ "." ++ e.1) e.2) deeper

theorem gatheredDeepen {deeper : Settings} {bound : Nat} (h : Gathered deeper bound) (name : String) (inner : Settings) :
    Gathered (deepen name deeper inner) (bound + weightEntries inner) := by
  unfold deepen
  induction inner generalizing deeper bound with
  | nil => exact h
  | cons e rest ih =>
    obtain ⟨key,v⟩ := e
    rw [List.foldl_cons,weightEntries,← Nat.add_assoc]
    exact ih (gatheredPut h _ v)

def addEntry (fuel : Nat) (base : String) (p : Part) (name : String) : Value → Except Failure Part
  | .table inner => return { p with sections := p.sections.put name (.table inner) }
  | .none => return p
  | .list items =>
    if hasTable (.list items) then do
      let written ← items.mapM (writeItem fuel (under base name))
      return { p with arrays := p.arrays ++ String.join written }
    else do return { p with text := p.text ++ s!"{name} = {← writeValue (.list items)}\n" }
  | v => do return { p with text := p.text ++ s!"{name} = {← writeValue v}\n" }

def partStep (fuel : Nat) (base : String) (p : Part) (e : String × Value) : Except Failure Part := do
  addEntry fuel base p (← writeKey e.1) e.2

theorem partSteps (fuel : Nat) (base : String) (entries : Settings) :
    writePart (fuel + 1) base entries = entries.foldlM (partStep fuel base) ⟨"","",[]⟩ := by
  rw [writePart]
  refine foldlMSame entries _ (fun p e _ => ?_)
  obtain ⟨key,v⟩ := e
  unfold partStep
  refine bind_congr (fun name => ?_)
  cases v <;> rfl

def levelStep (fuel : Nat) (base : String → String) (text : String → String → Part → String) (acc : String × Settings)
    (e : String × Value) : Except Failure (String × Settings) := do
  let p ← writePart fuel (base e.1) (← entriesOf e.2)
  return (text acc.1 e.1 p,deepen e.1 acc.2 p.sections)

def level (fuel : Nat) (base : String → String) (text : String → String → Part → String) (start : String)
    (sections : Settings) : Except Failure (String × Settings) :=
  sections.foldlM (levelStep fuel base text) (start,[])

def nestedText (name shown key : String) (p : Part) : String :=
  let full := name ++ "." ++ key
  if p.whole == "" then shown else shown ++ s!"[{full}]\n" ++ p.whole

def sectionText (shown key : String) (p : Part) : String :=
  let gap := if shown == "" || shown.endsWith "\n\n" then "" else "\n"
  if p.whole != "" || p.sections.isEmpty then shown ++ gap ++ s!"[{key}]\n" ++ p.whole else shown

theorem nestedLevels (fuel : Nat) (name : String) (sections : Settings) :
    writeNested (fuel + 1) name sections = (do
      let found ← level fuel (fun key => name ++ "." ++ key) (nestedText name) "" sections
      return found.1 ++ (← writeNested fuel name found.2)) := by
  cases sections with
  | nil => cases fuel <;> rfl
  | cons e rest =>
    rw [writeNested]
    · rfl
    · simp

theorem sectionLevels (fuel : Nat) (text : String) (sections : Settings) :
    writeSections (fuel + 1) text sections = (do
      let found ← level fuel id sectionText text sections
      writeSections fuel found.1 found.2) := by
  cases sections with
  | nil => cases fuel <;> rfl
  | cons e rest =>
    rw [writeSections]
    · rfl
    · simp

def total (w : α → Nat) : List α → Nat
  | [] => 0
  | x :: xs => w x + total w xs

theorem foldlMAdds {I : β → Nat → Prop} {w : α → Nat} {f : β → α → Except ε β}
    (step : ∀ {b e b' n}, I b n → f b e = .ok b' → I b' (n + w e)) {xs : List α} {b b' : β} {n : Nat} (before : I b n)
    (run : xs.foldlM f b = .ok b') : I b' (n + total w xs) := by
  induction xs generalizing b n with
  | nil =>
    cases run
    exact before
  | cons x xs ih =>
    rw [List.foldlM_cons] at run
    obtain ⟨c,first,rest⟩ := okBind run
    have whole := ih (step before first) rest
    rwa [Nat.add_assoc] at whole

theorem weightSum (entries : Settings) : weightEntries entries = total (fun e => weight e.2) entries := by
  induction entries with
  | nil => rfl
  | cons e rest ih =>
    obtain ⟨key,v⟩ := e
    rw [weightEntries,ih,total]

theorem partGathered {fuel : Nat} {base : String} {entries : Settings} {p : Part}
    (written : writePart fuel base entries = .ok p) : Gathered p.sections (weightEntries entries) := by
  have nothing : Gathered [] 0 := ⟨by simp,by simp [weightEntries]⟩
  cases fuel with
  | zero =>
    rw [writePart] at written
    cases written
    exact ⟨nothing.distinct,Nat.zero_le _⟩
  | succ fuel =>
    rw [partSteps] at written
    rw [weightSum,← Nat.zero_add (total _ _)]
    refine foldlMAdds (I := fun q n => Gathered q.sections n) (fun {q e q' n} before run => ?_) nothing written
    have still : Gathered q.sections (n + weight e.2) := ⟨before.distinct,Nat.le_trans before.light (Nat.le_add_right _ _)⟩
    obtain ⟨name,_,rest⟩ := okBind run
    unfold addEntry at rest
    split at rest
    · rename_i inner same
      cases rest
      rw [same]
      exact gatheredPut before name _
    · cases rest
      exact still
    · split at rest
      · obtain ⟨written,_,last⟩ := okBind rest
        cases last
        exact still
      · obtain ⟨written,_,last⟩ := okBind rest
        cases last
        exact still
    · obtain ⟨written,_,last⟩ := okBind rest
      cases last
      exact still

theorem levelLighter {fuel : Nat} {base : String → String} {text : String → String → Part → String} {start : String}
    {sections : Settings} {found : String × Settings} (filled : sections ≠ [])
    (run : level fuel base text start sections = .ok found) : weightEntries found.2 + 1 ≤ weightEntries sections := by
  have nothing : Gathered [] 0 := ⟨by simp,by simp [weightEntries]⟩
  have gathered := foldlMAdds (I := fun acc n => Gathered (Prod.snd acc) n) (w := fun e => weight e.2 - 1)
    (fun {acc e acc' n} before step => by
      obtain ⟨entries,own,rest⟩ := okBind step
      obtain ⟨p,written,last⟩ := okBind rest
      cases last
      have deeper := gatheredDeepen before e.1 p.sections
      have light := (partGathered written).light
      have under := weightOwn own
      exact ⟨deeper.distinct,Nat.le_trans deeper.light (by omega)⟩) nothing run
  have positive (v : Value) : 1 ≤ weight v := by
    cases v <;> simp [weight]
  have sum (entries : Settings) : total (fun e => weight e.2 - 1) entries + entries.length = weightEntries entries := by
    induction entries with
    | nil => rfl
    | cons e rest ih =>
      obtain ⟨key,v⟩ := e
      have := positive v
      simp only [total,List.length_cons,weightEntries]
      omega
  have light := gathered.light
  have counted := sum sections
  have some := List.length_pos_iff.mpr filled
  omega

theorem levelStable {n : Nat} {sections : Settings}
    (stable : ∀ base entries, weightEntries entries + 1 ≤ weightEntries sections →
      writePart (n + 1) base entries = writePart n base entries)
    (base : String → String) (text : String → String → Part → String) (start : String) :
    level (n + 1) base text start sections = level n base text start sections := by
  refine foldlMSame sections _ (fun acc e member => ?_)
  unfold levelStep
  cases own : entriesOf e.2 with
  | error f => rfl
  | ok entries =>
    have lighter := Nat.le_trans (weightOwn own) (weightEntry member)
    change (writePart (n + 1) (base e.1) entries >>= _) = (writePart n (base e.1) entries >>= _)
    rw [stable _ _ lighter]

structure Stable (n : Nat) : Prop where
  part : ∀ base entries, 2 * weightEntries entries < n → writePart (n + 1) base entries = writePart n base entries
  item : ∀ name v, 2 * weight v ≤ n → writeItem (n + 1) name v = writeItem n name v
  nested : ∀ name sections, 2 * weightEntries sections < n →
    writeNested (n + 1) name sections = writeNested n name sections

theorem stablePart {n : Nat} (stable : Stable n) (base : String) (entries : Settings)
    (light : 2 * weightEntries entries < n + 1) : writePart (n + 2) base entries = writePart (n + 1) base entries := by
  rw [partSteps,partSteps]
  refine foldlMSame entries _ (fun p e member => ?_)
  have under := weightEntry member
  refine bind_congr (fun name => ?_)
  unfold addEntry
  split
  · rfl
  · rfl
  · rename_i items same
    have written : items.mapM (writeItem (n + 1) (Toml.under base name)) =
        items.mapM (writeItem n (Toml.under base name)) := by
      refine mapMSame items (fun v inside => stable.item _ v ?_)
      have inner := weightItem inside
      rw [same,weight] at under
      omega
    rw [written]
  · rfl

theorem stableItem {n : Nat} (stable : Stable n) (name : String) (v : Value) (light : 2 * weight v ≤ n + 1) :
    writeItem (n + 2) name v = writeItem (n + 1) name v := by
  rw [writeItem,writeItem]
  cases own : entriesOf v with
  | error f => rfl
  | ok entries =>
    have lighter := weightOwn own
    change (writePart (n + 1) name entries >>= _) = (writePart n name entries >>= _)
    rw [stable.part name entries (by omega)]
    cases written : writePart n name entries with
    | error f => rfl
    | ok p =>
      have inner := (partGathered written).light
      change (writeNested (n + 1) name p.sections >>= _) = (writeNested n name p.sections >>= _)
      rw [stable.nested name p.sections (by omega)]

theorem stableNested {n : Nat} (stable : Stable n) (name : String) (sections : Settings)
    (light : 2 * weightEntries sections < n + 1) : writeNested (n + 2) name sections = writeNested (n + 1) name sections := by
  by_cases filled : sections = []
  · subst filled
    rw [writeNested,writeNested]
  · rw [nestedLevels,nestedLevels,
      levelStable (fun base entries lighter => stable.part base entries (by omega))]
    cases run : level n (fun key => name ++ "." ++ key) (nestedText name) "" sections with
    | error f => rfl
    | ok found =>
      have lighter := levelLighter filled run
      change (writeNested (n + 1) name found.2 >>= _) = (writeNested n name found.2 >>= _)
      rw [stable.nested name found.2 (by omega)]

/- Once the bound is twice the weight, it is never reached. -/
theorem partsStable (n : Nat) : Stable n := by
  induction n with
  | zero =>
    refine ⟨fun _ _ h => by omega,fun _ v h => ?_,fun _ _ h => by omega⟩
    cases v <;> simp [weight] at h
  | succ n ih => exact ⟨stablePart ih,stableItem ih,stableNested ih⟩

theorem sectionsStable (n : Nat) (text : String) (sections : Settings) (light : 2 * weightEntries sections < n) :
    writeSections (n + 1) text sections = writeSections n text sections := by
  induction n generalizing text sections with
  | zero => omega
  | succ n ih =>
    by_cases filled : sections = []
    · subst filled
      rw [writeSections,writeSections]
    · rw [sectionLevels,sectionLevels,
        levelStable (fun base entries lighter => (partsStable n).part base entries (by omega))]
      cases run : level n id sectionText text sections with
      | error f => rfl
      | ok found =>
        have lighter := levelLighter filled run
        exact ih found.1 found.2 (by omega)

theorem steadyBeyond {f : Nat → α} {k : Nat} (step : ∀ m, k < m → f (m + 1) = f m) {m : Nat} (beyond : k < m) :
    f m = f (k + 1) := by
  induction m with
  | zero => omega
  | succ m ih =>
    by_cases later : k < m
    · rw [step m later,ih later]
    · rw [show m = k by omega]

theorem writeWithin {settings : Settings} {n : Nat} (enough : 2 * weightEntries settings < n) :
    write settings = (do
      let p ← writePart n "" settings
      writeSections n p.whole p.sections) := by
  have own : 2 * weightEntries settings < 4 * weightEntries settings + 4 := by omega
  have parts {m : Nat} (large : 2 * weightEntries settings < m) :
      writePart m "" settings = writePart (2 * weightEntries settings + 1) "" settings :=
    steadyBeyond (f := fun m => writePart m "" settings) (fun m => (partsStable m).part "" settings) large
  unfold write
  dsimp only
  rw [parts own,parts enough]
  cases written : writePart (2 * weightEntries settings + 1) "" settings with
  | error f => rfl
  | ok p =>
    have light := (partGathered written).light
    have sections {m : Nat} (large : 2 * weightEntries settings < m) :
        writeSections m p.whole p.sections = writeSections (2 * weightEntries settings + 1) p.whole p.sections :=
      steadyBeyond (f := fun m => writeSections m p.whole p.sections)
        (fun m large => sectionsStable m p.whole p.sections (by omega)) large
    change writeSections (4 * weightEntries settings + 4) p.whole p.sections = writeSections n p.whole p.sections
    rw [sections own,sections enough]

def plainOrEmpty : Value → Bool
  | .text s => s == ""
  | .list items => items.isEmpty
  | .table entries => entries.isEmpty
  | _ => true

theorem plainUntruthy {v : Value} (untrue : v.truthy = false) : plainOrEmpty v = true := by
  cases v <;> simp_all [plainOrEmpty,Value.truthy]

def Light (key : String) (s : Settings) : Prop := ∀ v, (key,v) ∈ s → plainOrEmpty v = true

def Hollow (key : String) (s : Settings) : Prop := ∀ v, (key,v) ∈ s → v = .table []

theorem foldlMFiltered {R : β → β → Prop} {f : β → α → Except Failure β} {keep : α → Bool} {xs : List α}
    (kept : ∀ {b b' x}, x ∈ xs → keep x = true → R b b' → Matched R (f b x) (f b' x))
    (dropped : ∀ {b b' x}, x ∈ xs → keep x = false → R b b' → ∃ c, f b x = .ok c ∧ R c b') {b b' : β} (related : R b b') :
    Matched R (xs.foldlM f b) ((xs.filter keep).foldlM f b') := by
  induction xs generalizing b b' with
  | nil => exact .ok related
  | cons x xs ih =>
    have later {c c' : β} (related : R c c') : Matched R (xs.foldlM f c) ((xs.filter keep).foldlM f c') :=
      ih (fun member => kept (by simp [member])) (fun member => dropped (by simp [member])) related
    rw [List.foldlM_cons]
    cases here : keep x with
    | true =>
      rw [List.filter_cons_of_pos here,List.foldlM_cons]
      exact matchedBind (kept (by simp) here related) (fun c c' => later)
    | false =>
      obtain ⟨c,run,related'⟩ := dropped (by simp) here related
      rw [List.filter_cons_of_neg (by simp [here]),run]
      exact later related'

theorem levelFiltered {sections : Settings} {keep : String × Value → Bool}
    (hollow : ∀ e ∈ sections, keep e = false → e.2 = .table []) (n : Nat) (base : String → String)
    (text : String → String → Part → String) (start start' : String) :
    Matched (fun found found' => found.2 = found'.2) (level n base text start sections)
      (level n base text start' (sections.filter keep)) := by
  refine foldlMFiltered (fun {acc acc' e} _ _ same => ?_) (fun {acc acc' e} member gone same => ?_) rfl
  · unfold levelStep
    cases entriesOf e.2 with
    | error f => exact .error f
    | ok entries =>
      refine @matchedBind _ _ _ _ Eq _ (writePart n (base e.1) entries) _ _ _ (matchedSame rfl) (fun p p' equal => ?_)
      exact .ok (by rw [equal,same])
  · have empty : writePart n (base e.1) [] = .ok ⟨"","",[]⟩ := by
      cases n with
      | zero => rw [writePart]
      | succ n => rw [partSteps]; rfl
    refine ⟨(text acc.1 e.1 ⟨"","",[]⟩,acc.2),?_,same⟩
    rw [levelStep,hollow e member gone]
    change (writePart n (base e.1) [] >>= _) = _
    rw [empty]
    rfl

theorem sectionsFiltered {sections : Settings} {keep : String × Value → Bool}
    (hollow : ∀ e ∈ sections, keep e = false → e.2 = .table []) (n : Nat) (text text' : String) :
    Matched (fun _ _ => True) (writeSections n text sections) (writeSections n text' (sections.filter keep)) := by
  induction n generalizing text text' sections keep with
  | zero => exact .ok trivial
  | succ n ih =>
    rw [sectionLevels,sectionLevels]
    refine matchedBind (levelFiltered hollow n id sectionText text text') (fun found found' same => ?_)
    have next := @ih found.2 (fun _ => true) (fun _ _ gone => by cases gone) found.1 found'.1
    rw [List.filter_eq_self.mpr (fun _ _ => rfl)] at next
    exact same ▸ next

theorem writtenKey {key name : String} (bare : '"' ∉ name.toList) (written : writeKey key = .ok name) : key = name := by
  unfold writeKey at written
  split at written
  · exact Except.ok.inj written
  · exfalso
    have quoted : ∃ text, name = "\"" ++ text ∨ name = "\"\"" := by
      unfold quote quoteBody at written
      dsimp only at written
      split at written
      · cases written
        exact ⟨"",.inr rfl⟩
      · obtain ⟨inner,_,last⟩ := okBind written
        cases last
        exact ⟨inner ++ "\"",.inl (by rw [String.append_assoc])⟩
    obtain ⟨text,rfl | rfl⟩ := quoted
    · simp at bare
    · simp at bare

theorem splitWhole {s sep : String} (filled : sep ≠ "") (n : Nat)
    (apart : ∀ i < n, String.Pos.Raw.atEnd s ⟨i⟩ = false ∧ (String.Pos.Raw.get s ⟨i⟩ == String.Pos.Raw.get sep 0) = false ∧
      String.Pos.Raw.next s ⟨i⟩ = ⟨i + 1⟩)
    (last : String.Pos.Raw.atEnd s ⟨n⟩ = true) (whole : String.Pos.Raw.extract s 0 ⟨n⟩ = s) : s.splitOn sep = [s] := by
  have passed (k : Nat) (within : k ≤ n) : s.splitOnAux sep 0 0 0 [] = s.splitOnAux sep 0 ⟨k⟩ 0 [] := by
    induction k with
    | zero => rfl
    | succ k ih =>
      obtain ⟨more,other,next⟩ := apart k within
      rw [ih (by omega),String.splitOnAux.eq_def s sep 0 ⟨k⟩,more,other]
      simp only [Bool.false_eq_true,if_false]
      change s.splitOnAux sep 0 (String.Pos.Raw.next s ⟨k⟩) 0 [] = _
      rw [next]
  rw [String.splitOn,if_neg (by simpa using filled),passed n (Nat.le_refl n),String.splitOnAux,last,if_pos rfl]
  simp [whole]

theorem emptyQuoted : ∃ quotes, writeValue (.text "") = .ok quotes := by
  have whole (sep : String) (filled : sep ≠ "") : "".splitOn sep = [""] :=
    splitWhole filled 0 (fun _ below => absurd below (Nat.not_lt_zero _)) (by decide +kernel) (by decide +kernel)
  have plain (old new : String) (filled : old ≠ "") : replaceText "" old new = "" := by
    rw [replaceText,whole old filled]
    rfl
  have shown : Quoted.render "" = "''" := by decide +kernel
  have opened : "''".startsWith "'" = true := by decide +kernel
  have inner : String.ofList (("''".toList.drop 1).dropLast) = "" := by decide +kernel
  refine ⟨"\"\"",?_⟩
  change quoteBody (Quoted.render "") = _
  rw [shown,quoteBody,inner,opened,plain _ _ (by decide),plain _ _ (by decide)]
  rw [if_pos rfl,whole _ (by decide)]
  rfl

theorem stepKept {key : String} (bare : '"' ∉ key.toList) {p p' : Part} {e : String × Value} (other : e.1 ≠ key)
    (n : Nat) (base : String)
    (related : p'.sections = p.sections.erase key ∧ Hollow key p.sections) :
    Matched (fun p p' => p'.sections = p.sections.erase key ∧ Hollow key p.sections) (partStep n base p e)
      (partStep n base p' e) := by
  unfold partStep
  cases written : writeKey e.1 with
  | error f => exact .error f
  | ok name =>
    have named : name ≠ key := by
      rintro rfl
      exact other (writtenKey bare written)
    change Matched _ (addEntry n base p name e.2) (addEntry n base p' name e.2)
    unfold addEntry
    split
    · refine .ok ⟨by rw [related.1,putErasedOther _ named],fun v inside => ?_⟩
      rcases memPut inside with ⟨same,_⟩ | ⟨_,before⟩
      · exact absurd same.symm named
      · exact related.2 v before
    · exact .ok related
    · split
      · exact matchedBind (matchedSame rfl) (fun _ _ _ => .ok related)
      · exact matchedBind (matchedSame rfl) (fun _ _ _ => .ok related)
    · exact matchedBind (matchedSame rfl) (fun _ _ _ => .ok related)

theorem stepDropped {key : String} (own : writeKey key = .ok key) {p p' : Part} {v : Value}
    (light : plainOrEmpty v = true) (n : Nat) (base : String)
    (related : p'.sections = p.sections.erase key ∧ Hollow key p.sections) :
    ∃ c, partStep n base p (key,v) = .ok c ∧ p'.sections = c.sections.erase key ∧ Hollow key c.sections := by
  unfold partStep
  rw [own]
  change ∃ c, addEntry n base p key v = .ok c ∧ _
  cases v with
  | none => exact ⟨p,rfl,related⟩
  | bool b => exact ⟨_,rfl,related⟩
  | int m => exact ⟨_,rfl,related⟩
  | float x => exact ⟨_,rfl,related⟩
  | text t =>
    obtain rfl : t = "" := by simpa [plainOrEmpty] using light
    obtain ⟨quotes,quoted⟩ := emptyQuoted
    refine ⟨{ p with text := p.text ++ s!"{key} = {quotes}\n" },?_,related⟩
    change (writeValue (.text "") >>= fun w => Except.ok { p with text := p.text ++ s!"{key} = {w}\n" }) = _
    rw [quoted]
    rfl
  | list items =>
    obtain rfl : items = [] := by simpa [plainOrEmpty] using light
    exact ⟨_,rfl,related⟩
  | table entries =>
    obtain rfl : entries = [] := by simpa [plainOrEmpty] using light
    refine ⟨_,rfl,by rw [related.1,putErased],fun v inside => ?_⟩
    rcases memPut inside with ⟨_,same⟩ | ⟨apart,_⟩
    · exact same
    · exact absurd rfl apart

section
variable {key : String} (bare : '"' ∉ key.toList) (own : writeKey key = .ok key)
include bare own

theorem partFiltered {s : Settings} (light : Light key s) (n : Nat) (base : String) :
    Matched (fun p p' => p'.sections = p.sections.erase key ∧ Hollow key p.sections) (writePart (n + 1) base s)
      (writePart (n + 1) base (s.erase key)) := by
  rw [partSteps,partSteps]
  refine foldlMFiltered (fun _ other related => ?_) (fun {p p' e} member gone related => ?_)
    ⟨rfl,fun _ inside => by cases inside⟩
  · exact stepKept bare (by simpa using other) n base related
  · obtain ⟨here,v⟩ := e
    obtain rfl : here = key := by simpa using gone
    exact stepDropped own (light v member) n base related

theorem writeErased {s : Settings} (light : Light key s) :
    Matched (fun _ _ => True) (write s) (write (s.erase key)) := by
  rw [writeWithin (n := 2 * (weightEntries s + weightEntries (s.erase key)) + 1) (by omega),
    writeWithin (n := 2 * (weightEntries s + weightEntries (s.erase key)) + 1) (by omega)]
  refine matchedBind (partFiltered bare own light _ "") (fun p p' related => ?_)
  obtain ⟨sections,hollow⟩ := related
  rw [sections]
  refine sectionsFiltered (fun e member gone => ?_) _ _ _
  have here : e.1 = key := by simpa using gone
  exact hollow e.2 (here ▸ member)

theorem dumpApart {s t : Settings} (light : Light key s) (light' : Light key t) (same : t.erase key = s.erase key) :
    Matched (fun _ _ => True) (Config.dump s) (Config.dump t) := by
  have right := writeErased bare own light'
  rw [same] at right
  exact matchedBind (matchedThrough (writeErased bare own light) right) (fun _ _ _ => .ok trivial)

end

end Retouch.Dumping

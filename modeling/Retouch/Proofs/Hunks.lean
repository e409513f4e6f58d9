import Retouch.Diff.Unified
import Retouch.Proofs.Script

/-! The groups of a unified diff. Unchanged ranges are cut and split, but no change of the script gets lost on the way,
so only equal lists of lines have an empty diff. -/
namespace Retouch.Hunks
open Script

theorem trimmedFirst {edits : List Edit} {e : Edit} (changed : e.isEqual = false) (member : e ∈ edits) :
    e ∈ Unified.trimFirst edits := by
  cases edits with
  | nil => cases member
  | cons first rest =>
    rw [Unified.trimFirst]
    split
    · rename_i equal
      rcases List.mem_cons.mp member with rfl | later
      · rw [changed] at equal
        cases equal
      · simp [later]
    · exact member

theorem trimmedLast {edits : List Edit} {e : Edit} (changed : e.isEqual = false) (member : e ∈ edits) :
    e ∈ Unified.trimLast edits := by
  fun_induction Unified.trimLast edits with
  | case1 => cases member
  | case2 last equal =>
    obtain rfl := List.mem_singleton.mp member
    rw [changed] at equal
    cases equal
  | case3 last other => exact member
  | case4 first rest more ih =>
    rcases List.mem_cons.mp member with rfl | later
    · simp
    · simp [ih later]

theorem splitShows {group edits : List Edit} {e : Edit} (changed : e.isEqual = false) (member : e ∈ group ∨ e ∈ edits) :
    ∃ shown ∈ Unified.split group edits, e ∈ shown := by
  fun_induction Unified.split group edits with
  | case1 group =>
    have inside : e ∈ group := member.resolve_right (by simp)
    exact ⟨group.reverse,by simp,by simp [inside]⟩
  | case2 group first rest long ih =>
    have other : e ≠ first := by
      rintro rfl
      simp [changed] at long
    rcases member with inside | ahead
    · exact ⟨_,List.mem_cons_self,by simp [inside]⟩
    · obtain ⟨shown,listed,inside⟩ := ih (.inr ((List.mem_cons.mp ahead).resolve_left other))
      exact ⟨shown,List.mem_cons_of_mem _ listed,inside⟩
  | case3 group first rest short ih =>
    refine ih ?_
    rcases member with inside | ahead
    · exact .inl (List.mem_cons_of_mem _ inside)
    · rcases List.mem_cons.mp ahead with rfl | later
      · exact .inl List.mem_cons_self
      · exact .inr later

theorem busyKept {groups : List (List Edit)} {shown : List Edit} {e : Edit} (listed : shown ∈ groups) (inside : e ∈ shown)
    (changed : e.isEqual = false) : Unified.dropIdle groups ≠ [] := by
  have filled : groups ≠ [] := List.ne_nil_of_mem listed
  have only {last : List Edit} (found : groups.getLast? = some last) (none : groups.dropLast = []) : e ∈ last := by
    obtain ⟨before,rfl⟩ := List.getLast?_eq_some_iff.mp found
    rw [List.dropLast_concat] at none
    subst none
    exact List.mem_singleton.mp listed ▸ inside
  unfold Unified.dropIdle
  split
  · rename_i found
    exact fun none => absurd (only found none) (by simp)
  · rename_i last found
    split
    · rename_i equal
      intro none
      rw [List.mem_singleton.mp (only found none),equal] at changed
      cases changed
    · exact filled
  · exact filled

theorem groupsShow {edits : List Edit} {e : Edit} (member : e ∈ edits) (changed : e.isEqual = false) :
    Unified.groups edits ≠ [] := by
  have kept := trimmedLast changed (trimmedFirst changed member)
  obtain ⟨shown,listed,inside⟩ := @splitShows [] _ e changed (.inr kept)
  exact busyKept listed inside changed

theorem leadsEqual {old new : List String} {i j : Nat} {edits : List Edit} (h : Leads old new i j edits)
    (equal : ∀ e ∈ edits, e.isEqual = true) : old.drop i = new.drop j := by
  induction h with
  | done => simp
  | @step kind i i' j j' rest shaped tail ih =>
    obtain rfl : kind = .equal := by simpa [Edit.isEqual] using equal _ List.mem_cons_self
    have same := shaped.2.2
    obtain ⟨up,up'⟩ := shapedForward shaped
    rw [← sliceDrop up,← sliceDrop up',ih (fun e member => equal e (List.mem_cons_of_mem _ member)),same]

theorem popularSame (old new : List String) :
    (Matcher.skippingPopular old new).old = old.toArray ∧ (Matcher.skippingPopular old new).new = new.toArray := by
  unfold Matcher.skippingPopular
  dsimp only
  split <;> exact ⟨rfl,rfl⟩

theorem popularIndexed (old new : List String) : Matching.Indexed (Matcher.skippingPopular old new) := by
  intro line j member
  have whole : j ∈ (Matcher.positions new).getD line [] := by
    unfold Matcher.skippingPopular at member
    dsimp only at member
    split at member
    · exact member
    · rw [Std.HashMap.getD_filter'] at member
      rw [Std.HashMap.getD_eq_getD_getElem?]
      cases found : (Matcher.positions new)[line]? with
      | none => simp [found] at member
      | some js =>
        rw [found,Option.filter_some] at member
        split at member
        · exact member
        · cases member
  rw [(popularSame old new).2]
  exact Matching.ofLinesIndexed old new line j whole

theorem unshownSame {name : String} {old new : List String} (none : Unified.lines name old new = []) : old = new := by
  obtain ⟨leads,_⟩ := matcherLeads (popularIndexed old new)
  rw [(popularSame old new).1,(popularSame old new).2] at leads
  have idle : Unified.groups (Matcher.skippingPopular old new).edits = [] := by
    unfold Unified.lines at none
    split at none
    · assumption
    · cases none
  refine leadsEqual leads (fun e member => ?_)
  cases changed : e.isEqual with
  | true => rfl
  | false => exact absurd idle (groupsShow member changed)

end Retouch.Hunks

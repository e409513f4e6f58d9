import Retouch.Data.Value

/-! What is found by a key after a table was changed. Tables keep their order, and a key that is put again
keeps its place, so putting is told by what is found and not by how the table is written. -/
namespace Retouch.Lookup

theorem lookupMapped [BEq α] [LawfulBEq α] (entries : List (α × β)) (key : α) (v : β) (q : α) :
    (entries.map (fun e => if e.1 == key then (key,v) else e)).lookup q =
      if q == key then (entries.lookup key).map (fun _ => v) else entries.lookup q := by
  induction entries with
  | nil => simp
  | cons e entries ih =>
    obtain ⟨here,held⟩ := e
    rw [List.map_cons]
    by_cases found : here = key
    · subst found
      simp only [beq_self_eq_true,if_true,List.lookup_cons,ih]
      cases q == here <;> rfl
    · simp only [beq_eq_false_iff_ne.mpr found,Bool.false_eq_true,if_false,List.lookup_cons,ih]
      by_cases same : q = here
      · subst same
        simp [found]
      · simp only [beq_eq_false_iff_ne.mpr same,beq_eq_false_iff_ne.mpr (Ne.symm found)]

theorem lookupPut [BEq α] [LawfulBEq α] (entries : List (α × β)) (key : α) (v : β) (q : α) :
    (if entries.any (·.1 == key) then entries.map (fun e => if e.1 == key then (key,v) else e)
      else entries ++ [(key,v)]).lookup q = if q == key then some v else entries.lookup q := by
  have known : entries.any (·.1 == key) = (entries.lookup key).isSome := by
    rw [Bool.eq_iff_iff,List.any_eq_true,List.lookup_isSome_iff]
    simp only [BEq.comm]
  rw [known]
  cases found : entries.lookup key with
  | none =>
    rw [if_neg (by simp),List.lookup_append,List.lookup_cons]
    by_cases same : q = key
    · simp [same,found]
    · simp [beq_eq_false_iff_ne.mpr same]
  | some held =>
    rw [if_pos (by simp),lookupMapped,found]
    rfl

theorem foundOnly [BEq α] [LawfulBEq α] {entries : List (α × β)} {key : α} {v : β} (keyed : (entries.map Prod.fst).Nodup)
    (member : (key,v) ∈ entries) : entries.lookup key = some v := by
  induction entries with
  | nil => cases member
  | cons e entries ih =>
    obtain ⟨here,held⟩ := e
    obtain ⟨outside,keyed⟩ := List.nodup_cons.mp keyed
    rw [List.lookup_cons]
    rcases List.mem_cons.mp member with same | later
    · cases same
      simp
    · have apart : key ≠ here := by
        rintro rfl
        exact outside (List.mem_map.mpr ⟨_,later,rfl⟩)
      simpa [beq_eq_false_iff_ne.mpr apart] using ih keyed later

theorem settingPut (s : Settings) (key : String) (v : Value) (q : String) :
    (s.put key v).lookup q = if q = key then some v else s.lookup q := by
  rw [Settings.put,lookupPut]
  simp only [beq_iff_eq]

theorem keysPut {s : Settings} (key : String) (v : Value) (distinct : (s.map Prod.fst).Nodup) :
    ((s.put key v).map Prod.fst).Nodup := by
  unfold Settings.put
  split
  · have same : (s.map (fun e => if e.1 == key then (key,v) else e)).map Prod.fst = s.map Prod.fst := by
      rw [List.map_map]
      refine List.map_congr_left (fun e _ => ?_)
      by_cases here : e.1 = key <;> simp [here]
    rw [same]
    exact distinct
  · rename_i absent
    rw [List.map_append,List.nodup_append]
    refine ⟨distinct,by simp,?_⟩
    rintro a inside b own rfl
    obtain ⟨e,member,rfl⟩ := List.mem_map.mp inside
    simp only [List.map_cons,List.map_nil,List.mem_singleton] at own
    exact absent (List.any_eq_true.mpr ⟨e,member,by simp [own]⟩)

theorem lookupFiltered [BEq α] [LawfulBEq α] {entries : List (α × β)} (keyed : (entries.map Prod.fst).Nodup)
    (p : α × β → Bool) (key : α) : (entries.filter p).lookup key = (entries.lookup key).filter (fun v => p (key,v)) := by
  induction entries with
  | nil => rfl
  | cons e entries ih =>
    obtain ⟨here,held⟩ := e
    obtain ⟨outside,keyed⟩ := List.nodup_cons.mp keyed
    by_cases same : key = here
    · subst same
      have gone : (entries.filter p).lookup key = none := by
        refine List.lookup_eq_none_iff.mpr (fun e member => bne_iff_ne.mpr ?_)
        rintro rfl
        exact outside (List.mem_map.mpr ⟨e,(List.mem_filter.mp member).1,rfl⟩)
      cases left : p (key,held) with
      | true => simp [List.filter_cons_of_pos left,left,Option.filter]
      | false => simpa [List.filter_cons,left,Option.filter] using gone
    · cases left : p (here,held) with
      | true => simpa [List.filter_cons_of_pos left,List.lookup_cons,beq_eq_false_iff_ne.mpr same] using ih keyed
      | false => simpa [List.filter_cons,left,List.lookup_cons,beq_eq_false_iff_ne.mpr same] using ih keyed

theorem alikeNone {v : Value} (alike : v.alike .none = true) : v = .none := by
  cases v <;> simp_all [Value.alike,Value.number?]

theorem settingErased (s : Settings) (key q : String) :
    (s.erase key).lookup q = if q = key then none else s.lookup q := by
  unfold Settings.erase
  induction s with
  | nil => simp
  | cons e s ih =>
    obtain ⟨here,held⟩ := e
    by_cases gone : here = key
    · subst gone
      rw [List.filter_cons_of_neg (by simp),ih,List.lookup_cons]
      by_cases same : q = here
      · simp [same]
      · simp [same,beq_eq_false_iff_ne.mpr same]
    · rw [List.filter_cons_of_pos (by simpa using gone),List.lookup_cons,List.lookup_cons,ih]
      by_cases same : q = here
      · subst same
        simp [gone]
      · simp only [beq_eq_false_iff_ne.mpr same]

theorem erasedTwice (s : Settings) (key : String) : (s.erase key).erase key = s.erase key := by
  simp [Settings.erase]

theorem erasedAbsent {s : Settings} {key : String} (absent : s.lookup key = none) : s.erase key = s := by
  refine List.filter_eq_self.mpr (fun e member => ?_)
  have other := List.lookup_eq_none_iff.mp absent e member
  rw [bne,BEq.comm]
  exact other

theorem memPut {s : Settings} {key q : String} {v w : Value} (member : (q,w) ∈ s.put key v) :
    (q = key ∧ w = v) ∨ (q ≠ key ∧ (q,w) ∈ s) := by
  unfold Settings.put at member
  split at member
  · obtain ⟨e,inside,same⟩ := List.mem_map.mp member
    by_cases here : e.1 = key
    · simp only [here,beq_self_eq_true,if_true,Prod.mk.injEq] at same
      exact .inl ⟨same.1.symm,same.2.symm⟩
    · simp only [beq_eq_false_iff_ne.mpr here,Bool.false_eq_true,if_false] at same
      subst same
      exact .inr ⟨here,inside⟩
  · rename_i absent
    rcases List.mem_append.mp member with inside | last
    · refine .inr ⟨?_,inside⟩
      rintro rfl
      exact absent (List.any_eq_true.mpr ⟨_,inside,by simp⟩)
    · cases List.mem_singleton.mp last
      exact .inl ⟨rfl,rfl⟩

theorem putFiltered (s : Settings) (key : String) (v : Value) (keep : String → Bool) :
    (s.map (fun e => if e.1 == key then (key,v) else e)).filter (fun e => keep e.1) =
      (s.filter (fun e => keep e.1)).map (fun e => if e.1 == key then (key,v) else e) := by
  rw [List.filter_map]
  refine congrArg _ (List.filter_congr (fun e _ => ?_))
  by_cases here : e.1 = key <;> simp [here]

theorem putErased (s : Settings) (key : String) (v : Value) : (s.put key v).erase key = s.erase key := by
  unfold Settings.put Settings.erase
  split
  · rw [putFiltered s key v (· != key)]
    refine (List.map_congr_left (fun e member => ?_)).trans (List.map_id _)
    have apart : e.1 ≠ key := by simpa using (List.mem_filter.mp member).2
    simp [apart]
  · simp

theorem putErasedOther (s : Settings) {key other : String} (apart : key ≠ other) (v : Value) :
    (s.put key v).erase other = (s.erase other).put key v := by
  have known : (s.filter (·.1 != other)).any (·.1 == key) = s.any (·.1 == key) := by
    rw [List.any_filter]
    refine List.any_congr rfl (fun e => ?_)
    by_cases here : e.1 = key <;> simp [here,apart]
  unfold Settings.put Settings.erase
  rw [known]
  split
  · exact putFiltered s key v (· != other)
  · rw [List.filter_append]
    simp [apart]

theorem settingOverlaid (s t : Settings) (q : String) :
    (s.overlay t).lookup q = (t.reverse.lookup q).or (s.lookup q) := by
  unfold Settings.overlay
  induction t generalizing s with
  | nil => simp
  | cons e t ih =>
    obtain ⟨key,v⟩ := e
    rw [List.foldl_cons,ih,settingPut,List.reverse_cons,List.lookup_append,Option.or_assoc,List.lookup_cons]
    by_cases same : q = key
    · simp [same]
    · simp [same,beq_eq_false_iff_ne.mpr same]

theorem settingOverlaidAgain (s t : Settings) (q : String) :
    ((s.overlay t).overlay t).lookup q = (s.overlay t).lookup q := by
  simp only [settingOverlaid]
  cases t.reverse.lookup q <;> simp

end Retouch.Lookup

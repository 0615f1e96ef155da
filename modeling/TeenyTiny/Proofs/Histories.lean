import TeenyTiny.Proofs.Names

/-! The symbol table as the result of the calls made on it. What a call answers and what the table
holds is read off the calls before: names in the order of their first definition, and of each label
the first declaration and the first reference. -/
namespace TeenyTiny
open Text

namespace Symbols

/-- A call on the table. -/
inductive Call where
  | define (name : Bytes)
  | lookup (name : Bytes)
  | declareLabel (name : Bytes) (line : Int)
  | referenceLabel (name : Bytes) (line : Int)
  deriving DecidableEq

/-- What a call gives back: whether a name is new or known, the earlier declaration of a label, or
nothing. -/
inductive Answer where
  | told (yes : Bool)
  | earlier (first : Option LabelLine)
  | noted
  deriving DecidableEq

@[simp] def call (s : Symbols) : Call → Answer × Symbols
  | .define name => (.told (s.define name).1,(s.define name).2)
  | .lookup name => (.told (s.isDefined name),s)
  | .declareLabel name line => (.earlier (s.declareLabel name line).1,(s.declareLabel name line).2)
  | .referenceLabel name line => (.noted,s.referenceLabel name line)

/-- The table after some calls. -/
def replay (s : Symbols) : List Call → Symbols
  | [] => s
  | c :: cs => (s.call c).2.replay cs

/-- What the calls answer, one after the other. -/
def answers (s : Symbols) : List Call → List Answer
  | [] => []
  | c :: cs => (s.call c).1 :: (s.call c).2.answers cs

theorem replay_append (s : Symbols) (as bs : List Call) :
    s.replay (as ++ bs) = (s.replay as).replay bs := by
  induction as generalizing s with
  | nil => rfl
  | cons a as ih => exact ih _

theorem answers_append (s : Symbols) (as bs : List Call) :
    s.answers (as ++ bs) = s.answers as ++ (s.replay as).answers bs := by
  induction as generalizing s with
  | nil => rfl
  | cons a as ih => exact congrArg _ (ih _)

theorem length_answers (s : Symbols) (cs : List Call) : (s.answers cs).length = cs.length := by
  induction cs generalizing s with
  | nil => rfl
  | cons c cs ih => exact congrArg Nat.succ (ih _)

namespace Call

@[simp] def defined? : Call → Option Bytes
  | define name => some name
  | _ => none

@[simp] def declared? : Call → Option LabelLine
  | declareLabel name line => some ⟨name,line⟩
  | _ => none

@[simp] def referenced? : Call → Option LabelLine
  | referenceLabel name line => some ⟨name,line⟩
  | _ => none

end Call

/-- The names that some calls define. -/
def defined (cs : List Call) : List Bytes := cs.filterMap Call.defined?

/-- The labels that some calls declare, each time that they do. -/
def declared (cs : List Call) : List LabelLine := cs.filterMap Call.declared?

/-- The labels that some calls refer to, each time that they do. -/
def referenced (cs : List Call) : List LabelLine := cs.filterMap Call.referenced?

@[simp] theorem defined_concat (cs : List Call) (c : Call) :
    defined (cs ++ [c]) = defined cs ++ c.defined?.toList := by
  rw [defined,List.filterMap_append]
  cases c <;> rfl

@[simp] theorem declared_concat (cs : List Call) (c : Call) :
    declared (cs ++ [c]) = declared cs ++ c.declared?.toList := by
  rw [declared,List.filterMap_append]
  cases c <;> rfl

@[simp] theorem referenced_concat (cs : List Call) (c : Call) :
    referenced (cs ++ [c]) = referenced cs ++ c.referenced?.toList := by
  rw [referenced,List.filterMap_append]
  cases c <;> rfl

/-- The first of these entries that has the name. -/
def firstOf (ls : List LabelLine) (name : Bytes) : Option LabelLine :=
  ls.find? (·.name == name)

/-- What a call answers after others. -/
def Call.answerAfter (before : List Call) : Call → Answer
  | define name => .told (!(defined before).contains name)
  | lookup name => .told ((defined before).contains name)
  | declareLabel name _ => .earlier (firstOf (declared before) name)
  | referenceLabel _ _ => .noted

section Firsts
variable {ls : List LabelLine} {l : LabelLine} {n : Bytes}

/-- One more entry, unless its name has one already. -/
def addFirst (ls : List LabelLine) (l : LabelLine) : List LabelLine :=
  if (firstOf ls l.name).isSome then ls else ls ++ [l]

/-- Of the entries with one name the first. -/
def firsts (ls : List LabelLine) : List LabelLine := ls.foldl addFirst []

theorem firsts_concat (ls : List LabelLine) (l : LabelLine) :
    firsts (ls ++ [l]) = addFirst (firsts ls) l := by
  rw [firsts,List.foldl_append]
  rfl

theorem firstOf_eq_none : firstOf ls n = none ↔ n ∉ ls.map LabelLine.name := by
  simp [firstOf]

/-- A search that goes by names does not miss an entry that is left out. -/
theorem find?_addFirst (p : Bytes → Bool) (ls : List LabelLine) (l : LabelLine) :
    (addFirst ls l).find? (fun k => p k.name) = (ls ++ [l]).find? (fun k => p k.name) := by
  unfold addFirst
  split_ifs with h
  · obtain ⟨k,hk,hn⟩ := List.find?_isSome.mp h
    rw [List.find?_append]
    by_cases hp : p l.name = true
    · refine (Option.or_of_isSome (List.find?_isSome.mpr ⟨k,hk,?_⟩)).symm
      rw [beq_iff_eq.mp hn]
      exact hp
    · have hl : [l].find? (fun k => p k.name) = none := by simp [hp]
      rw [hl,Option.or_none]
  · rfl

theorem find?_firsts (p : Bytes → Bool) (ls : List LabelLine) :
    (firsts ls).find? (fun k => p k.name) = ls.find? (fun k => p k.name) := by
  induction ls using List.reverseRecOn with
  | nil => rfl
  | append_singleton ls l ih =>
    rw [firsts_concat,find?_addFirst,List.find?_append,List.find?_append,ih]

theorem firstOf_firsts (ls : List LabelLine) (n : Bytes) : firstOf (firsts ls) n = firstOf ls n :=
  find?_firsts (· == n) ls

theorem map_name_firsts (ls : List LabelLine) :
    (firsts ls).map LabelLine.name = (ls.map LabelLine.name).eraseDups := by
  induction ls using List.reverseRecOn with
  | nil => rfl
  | append_singleton ls l ih =>
    rw [firsts_concat,addFirst,firstOf_firsts,List.map_append,List.map_singleton]
    cases hf : firstOf ls l.name with
    | none =>
      rw [eraseDups_concat_of_not_mem (firstOf_eq_none.mp hf),← ih]
      simp
    | some first =>
      have hm : l.name ∈ ls.map LabelLine.name := by
        by_contra hm
        rw [firstOf_eq_none.mpr hm] at hf
        cases hf
      rw [eraseDups_concat_of_mem hm,← ih]
      simp

/-- Each entry that is kept is the first one with its name. -/
theorem firstOf_of_mem_firsts (h : l ∈ firsts ls) : firstOf ls l.name = some l := by
  induction ls using List.reverseRecOn with
  | nil => cases h
  | append_singleton ls k ih =>
    rw [firsts_concat,addFirst,firstOf_firsts] at h
    unfold firstOf at ih h ⊢
    rw [List.find?_append]
    split_ifs at h with hk
    · rw [ih h]
      rfl
    · rcases List.mem_append.mp h with h | h
      · rw [ih h]
        rfl
      · obtain rfl := List.mem_singleton.mp h
        rw [Option.not_isSome_iff_eq_none.mp hk]
        simp

end Firsts

section Steps
variable (s : Symbols) (n : Bytes) (line : Int)

theorem labels_declareLabel : (s.declareLabel n line).2.labels = addFirst s.labels ⟨n,line⟩ := by
  have hf : s.findLabel? n = firstOf s.labels n := rfl
  unfold declareLabel addFirst
  rw [hf]
  cases firstOf s.labels n <;> rfl

theorem gotos_declareLabel : (s.declareLabel n line).2.gotos = s.gotos := by
  unfold declareLabel
  split <;> rfl

theorem declareLabel_fst : (s.declareLabel n line).1 = firstOf s.labels n := by
  have hf : s.findLabel? n = firstOf s.labels n := rfl
  unfold declareLabel
  rw [hf]
  cases firstOf s.labels n <;> rfl

theorem gotos_referenceLabel : (s.referenceLabel n line).gotos = addFirst s.gotos ⟨n,line⟩ := by
  have ha : s.gotos.any (·.name == n) = (firstOf s.gotos n).isSome := by
    rw [firstOf,Bool.eq_iff_iff,List.any_eq_true,List.find?_isSome]
  unfold referenceLabel addFirst
  rw [ha]
  split <;> rfl

theorem labels_referenceLabel : (s.referenceLabel n line).labels = s.labels := by
  unfold referenceLabel
  split <;> rfl

theorem labels_define : (s.define n).2.labels = s.labels := by
  unfold define
  split <;> rfl

theorem gotos_define : (s.define n).2.gotos = s.gotos := by
  unfold define
  split <;> rfl

/-- A declaration and a reference do not see each other. -/
theorem declareLabel_referenceLabel (m : Bytes) (line' : Int) :
    (s.referenceLabel m line').declareLabel n line =
      ((s.declareLabel n line).1,(s.declareLabel n line).2.referenceLabel m line') := by
  have hf : (s.referenceLabel m line').findLabel? n = s.findLabel? n :=
    congrArg (firstOf · n) (labels_referenceLabel s m line')
  unfold declareLabel
  rw [hf]
  cases s.findLabel? n with
  | some first => rfl
  | none =>
    unfold referenceLabel
    split_ifs <;> rfl

end Steps

/-- The table holds what the calls have said first. -/
structure Recalls (s : Symbols) (cs : List Call) : Prop where
  names : s.names = (defined cs).eraseDups
  labels : s.labels = firsts (declared cs)
  gotos : s.gotos = firsts (referenced cs)

section Recalls
variable {s : Symbols} {cs : List Call}

theorem recalls_nil : Recalls {} [] := ⟨rfl,rfl,rfl⟩

theorem Recalls.isDefined (h : s.Recalls cs) (n : Bytes) :
    s.isDefined n = (defined cs).contains n := by
  rw [Symbols.isDefined,h.names,Bool.eq_iff_iff]
  simp

theorem Recalls.names_define (h : s.Recalls cs) (n : Bytes) :
    (s.define n).2.names = (defined cs ++ [n]).eraseDups := by
  have hd := h.isDefined n
  unfold define
  split_ifs with hn
  · rw [hd] at hn
    rw [eraseDups_concat_of_mem (List.contains_iff_mem.mp hn)]
    exact h.names
  · rw [hd] at hn
    rw [eraseDups_concat_of_not_mem fun hm => hn (List.contains_iff_mem.mpr hm),← h.names]

/-- One call more. -/
theorem Recalls.call (h : s.Recalls cs) (c : Call) : (s.call c).2.Recalls (cs ++ [c]) := by
  cases c with
  | define n =>
    refine ⟨?_,?_,?_⟩
    · simpa using h.names_define n
    · simpa using (labels_define s n).trans h.labels
    · simpa using (gotos_define s n).trans h.gotos
  | lookup n => exact ⟨by simpa using h.names,by simpa using h.labels,by simpa using h.gotos⟩
  | declareLabel n line =>
    refine ⟨?_,?_,?_⟩
    · simpa using (names_declareLabel s n line).trans h.names
    · simp [labels_declareLabel,firsts_concat,h.labels]
    · simpa using (gotos_declareLabel s n line).trans h.gotos
  | referenceLabel n line =>
    refine ⟨?_,?_,?_⟩
    · simpa using (names_referenceLabel s n line).trans h.names
    · simpa using (labels_referenceLabel s n line).trans h.labels
    · simp [gotos_referenceLabel,firsts_concat,h.gotos]

/-- However many calls there are. -/
theorem recalls_replay (cs : List Call) : (({} : Symbols).replay cs).Recalls cs := by
  induction cs using List.reverseRecOn with
  | nil => exact recalls_nil
  | append_singleton cs c ih =>
    rw [replay_append]
    exact ih.call c

theorem Recalls.answer (h : s.Recalls cs) (c : Call) : (s.call c).1 = c.answerAfter cs := by
  cases c with
  | define n =>
    have hd := h.isDefined n
    have hn : (s.define n).1 = !s.isDefined n := by
      unfold define
      split_ifs with hn <;> simp [hn]
    exact congrArg Answer.told (hn.trans (congrArg _ hd))
  | lookup n => exact congrArg Answer.told (h.isDefined n)
  | declareLabel n line =>
    refine congrArg Answer.earlier ?_
    rw [declareLabel_fst,h.labels,firstOf_firsts]
  | referenceLabel n line => rfl

theorem Recalls.unresolved (h : s.Recalls cs) : s.unresolved =
    (firsts (referenced cs)).filter fun target =>
      target.name ∉ (declared cs).map LabelLine.name := by
  unfold Symbols.unresolved
  rw [h.gotos]
  refine List.filter_congr fun target _ => ?_
  have hf : s.findLabel? target.name = firstOf (declared cs) target.name := by
    rw [← firstOf_firsts,← h.labels]
    rfl
  rw [hf,Bool.eq_iff_iff,Option.isNone_iff_eq_none,firstOf_eq_none,decide_eq_true_iff]

/-- The first target that is not declared. -/
theorem Recalls.head?_unresolved (h : s.Recalls cs) : s.unresolved.head? =
    (referenced cs).find? fun target => target.name ∉ (declared cs).map LabelLine.name := by
  rw [h.unresolved,List.head?_filter,
    find?_firsts (fun n => decide (n ∉ (declared cs).map LabelLine.name))]

/-- The targets that are not declared, each with its first reference. -/
theorem Recalls.map_unresolved (h : s.Recalls cs) : s.unresolved.map some =
    (((referenced cs).map LabelLine.name).eraseDups.filter
      fun n => n ∉ (declared cs).map LabelLine.name).map (firstOf (referenced cs)) := by
  rw [h.unresolved,← map_name_firsts,List.filter_map,List.map_map]
  refine List.map_congr_left fun target hm => ?_
  exact (firstOf_of_mem_firsts (List.mem_filter.mp hm).1).symm

end Recalls

/-- The calls that were made determine the table and the answers; a declaration next to a reference
may change places with it. -/
theorem determined_by_calls :
    (∀ calls, (({} : Symbols).replay calls).names = (defined calls).eraseDups) ∧
    (∀ calls, (({} : Symbols).replay calls).unresolved.map some =
      (((referenced calls).map LabelLine.name).eraseDups.filter
        fun n => n ∉ (declared calls).map LabelLine.name).map (firstOf (referenced calls))) ∧
    (∀ before call after, (({} : Symbols).answers (before ++ call :: after))[before.length]? =
      some (call.answerAfter before)) ∧
    ∀ before after n line m line',
      ({} : Symbols).replay (before ++ .declareLabel n line :: .referenceLabel m line' :: after) =
          ({} : Symbols).replay (before ++ .referenceLabel m line' :: .declareLabel n line :: after) ∧
        ∃ past first later, past.length = before.length ∧
          ({} : Symbols).answers
              (before ++ .declareLabel n line :: .referenceLabel m line' :: after) =
            past ++ .earlier first :: .noted :: later ∧
          ({} : Symbols).answers
              (before ++ .referenceLabel m line' :: .declareLabel n line :: after) =
            past ++ .noted :: .earlier first :: later := by
  refine ⟨fun calls => (recalls_replay calls).names,
    fun calls => (recalls_replay calls).map_unresolved,fun before call after => ?_,
    fun before after n line m line' => ?_⟩
  · have hl := length_answers {} before
    rw [answers_append,List.getElem?_append_right hl.le,hl,Nat.sub_self]
    exact congrArg some ((recalls_replay before).answer call)
  · have hx := declareLabel_referenceLabel (({} : Symbols).replay before) n line m line'
    constructor
    · rw [replay_append,replay_append]
      exact congrArg (replay · after) (congrArg Prod.snd hx).symm
    · refine ⟨({} : Symbols).answers before,_,_,length_answers _ _,answers_append _ _ _,?_⟩
      rw [answers_append]
      simp only [answers,call,hx]

end Symbols
end TeenyTiny

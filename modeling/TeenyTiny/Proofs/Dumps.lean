import TeenyTiny.Proofs.Histories

/-! The printed table. Labels are sorted by their names, and no two of them have the same name, so
the order of their declarations leaves no trace in the text; a target is marked exactly when it is
one of those that are not resolved. -/
namespace TeenyTiny
open Text

namespace Symbols

/-- A name with the blanks that fill its column. -/
def column (name : Bytes) : Bytes := name ++ List.replicate (20 - (decode name).length) 32

/-- The part of the names, which are counted from one. -/
def printedNames (names : List Bytes) : Bytes :=
  let line (n : Bytes × Nat) : Bytes :=
    "  " ++ column n.1 ++ "  (declared #" ++ toString (n.2 + 1) ++ ")\n"
  if names = [] then "Variables: (empty)\n" else "Variables:\n" ++ names.zipIdx.flatMap line

def printedLabels (labels : List LabelLine) : Bytes :=
  let line (l : LabelLine) : Bytes := "  " ++ column l.name ++ "  line " ++ toString l.line ++ "\n"
  if labels = [] then [] else "Labels:\n" ++ labels.flatMap line

/-- The part of the targets, each of them marked or not. -/
def printedTargets (targets : List (LabelLine × Bool)) : Bytes :=
  let line (t : LabelLine × Bool) : Bytes := "  " ++ column t.1.name ++ "  line " ++
    toString t.1.line ++ if t.2 = true then " (undeclared)\n" else " (ok)\n"
  if targets = [] then [] else "Gotos:\n" ++ targets.flatMap line

/-- The text of a table. -/
def printed (names : List Bytes) (labels : List LabelLine) (targets : List (LabelLine × Bool)) :
    Bytes :=
  printedNames names ++ printedLabels labels ++ printedTargets targets

section Order
variable {s : Symbols}

theorem perm_sortedLabels (s : Symbols) : s.sortedLabels.Perm s.labels := List.mergeSort_perm _ _

theorem sortedLabels_le (s : Symbols) :
    s.sortedLabels.Pairwise fun a b => a.name ≤ b.name := by
  have hle : ∀ a b : LabelLine, (!decide (b.name < a.name)) = true ↔ a.name ≤ b.name := by
    intro a b
    rw [Bool.not_eq_true',decide_eq_false_iff_not,List.not_lt]
  have hs : s.sortedLabels.Pairwise fun a b => (!decide (b.name < a.name)) = true := by
    apply List.pairwise_mergeSort
    · intro a b c hab hbc
      rw [hle] at hab hbc ⊢
      exact List.le_trans hab hbc
    · intro a b
      rw [Bool.or_eq_true,hle,hle]
      exact List.le_total a.name b.name
  exact hs.imp (hle _ _).mp

/-- Labels with different names stand in a strict order. -/
theorem sortedLabels_lt (h : (s.labels.map LabelLine.name).Nodup) :
    s.sortedLabels.Pairwise fun a b => a.name < b.name := by
  have hn : (s.sortedLabels.map LabelLine.name).Nodup :=
    ((perm_sortedLabels s).map _).nodup_iff.mpr h
  refine (sortedLabels_le s).imp₂ ?_ (List.pairwise_map.mp hn)
  intro a b hle hne
  by_contra hlt
  exact hne (List.le_antisymm hle hlt)

theorem nodup_of_lt {ls : List LabelLine} (h : ls.Pairwise fun a b => a.name < b.name) :
    ls.Nodup := by
  refine h.imp ?_
  rintro a b hlt rfl
  exact List.lt_irrefl _ hlt

/-- A set of labels has one strict order. -/
theorem eq_of_lt {ks ls : List LabelLine} (hk : ks.Pairwise fun a b => a.name < b.name)
    (hl : ls.Pairwise fun a b => a.name < b.name) (h : ∀ l, l ∈ ks ↔ l ∈ ls) : ks = ls := by
  -- without repetitions the same members are a permutation, and a strict order admits only one
  have hp := (List.perm_ext_iff_of_nodup (nodup_of_lt hk) (nodup_of_lt hl)).mpr h
  apply hp.eq_of_pairwise _ hk hl
  intro a b _ _ hab hba
  exact absurd hba (List.lt_asymm hab)

end Order

theorem column_eq (name : Bytes) : padTo 20 name = column name := by
  rw [padTo,column,decode,List.length_map]

/-- A heading stands over the lines of the entries, if there are any. -/
theorem titled_map {α : Type} (title ifNone : Bytes) (line : α → Bytes) (entries : List α) :
    titled title (entries.map line) ifNone =
      if entries = [] then ifNone else title ++ entries.flatMap line := by
  simp only [titled,List.map_eq_nil_iff,List.flatMap_def]

theorem titled_variableLines (s : Symbols) :
    titled "Variables:\n" s.variableLines "Variables: (empty)\n" = printedNames s.names := by
  have hlines : s.variableLines = s.names.zipIdx.map fun n =>
      "  " ++ column n.1 ++ "  (declared #" ++ toString (n.2 + 1) ++ ")\n" := by
    apply List.map_congr_left
    rintro ⟨name,i⟩ _
    simp only [column_eq,decimal_eq]
    rfl
  rw [hlines,titled_map,printedNames]
  simp only [List.zipIdx_eq_nil_iff]

theorem titled_labelLines (s : Symbols) :
    titled "Labels:\n" s.labelLines [] = printedLabels s.sortedLabels := by
  have hlines : s.labelLines = s.sortedLabels.map fun l =>
      "  " ++ column l.name ++ "  line " ++ toString l.line ++ "\n" := by
    apply List.map_congr_left
    intro l _
    rw [column_eq,decimal_eq]
  rw [hlines,titled_map,printedLabels]

theorem titled_gotoLines (s : Symbols) : titled "Gotos:\n" s.gotoLines [] =
    printedTargets (s.gotos.map fun t => (t,(s.findLabel? t.name).isNone)) := by
  have hlines : s.gotoLines = (s.gotos.map fun t => (t,(s.findLabel? t.name).isNone)).map fun t =>
      "  " ++ column t.1.name ++ "  line " ++ toString t.1.line ++
        if t.2 = true then " (undeclared)\n" else " (ok)\n" := by
    rw [gotoLines,List.map_map]
    apply List.map_congr_left
    intro t _
    have hok : (" (" : Bytes) ++ ("ok" ++ ")\n") = " (ok)\n" := by decide
    have hno : (" (" : Bytes) ++ ("undeclared" ++ ")\n") = " (undeclared)\n" := by decide
    cases hf : s.findLabel? t.name with
    | none => simp [hf,hno,column_eq,decimal_eq]
    | some first => simp [hf,hok,column_eq,decimal_eq]
  rw [hlines,titled_map,printedTargets]

/-- The dump shows each part of the table. -/
theorem dump_eq (s : Symbols) : s.dump =
    printed s.names s.sortedLabels (s.gotos.map fun t => (t,(s.findLabel? t.name).isNone)) := by
  rw [dump,titled_variableLines,titled_labelLines,titled_gotoLines,printed]

/-- A target is one of those that are not resolved exactly when its label is not found. -/
theorem isNone_eq_unresolved {s : Symbols} {t : LabelLine} (h : t ∈ s.gotos) :
    (s.findLabel? t.name).isNone = decide (t.name ∈ s.unresolved.map LabelLine.name) := by
  rw [Bool.eq_iff_iff,decide_eq_true_iff,List.mem_map]
  constructor
  · intro hn
    exact ⟨t,List.mem_filter.mpr ⟨h,hn⟩,rfl⟩
  · rintro ⟨u,hu,he⟩
    rw [← he]
    exact (List.mem_filter.mp hu).2

theorem mem_names_firsts {ls : List LabelLine} {n : Bytes} :
    n ∈ (firsts ls).map LabelLine.name ↔ n ∈ ls.map LabelLine.name := by
  rw [map_name_firsts,List.mem_eraseDups]

section Recalls
variable {s r : Symbols} {cs ds : List Call}

theorem Recalls.map_name_labels (h : s.Recalls cs) :
    s.labels.map LabelLine.name = ((declared cs).map LabelLine.name).eraseDups := by
  rw [h.labels,map_name_firsts]

theorem Recalls.sortedLabels_lt (h : s.Recalls cs) :
    s.sortedLabels.Pairwise fun a b => a.name < b.name := by
  apply Symbols.sortedLabels_lt
  rw [h.map_name_labels]
  exact nodup_eraseDups _

theorem Recalls.mem_sortedLabels (h : s.Recalls cs) {l : LabelLine} :
    l ∈ s.sortedLabels ↔ l ∈ firsts (declared cs) := by
  rw [(perm_sortedLabels s).mem_iff,h.labels]

/-- Each declared name is in the list once. -/
theorem Recalls.count_sortedLabels (h : s.Recalls cs) (n : Bytes) :
    (s.sortedLabels.map LabelLine.name).count n =
      if n ∈ (declared cs).map LabelLine.name then 1 else 0 := by
  rw [((perm_sortedLabels s).map _).count_eq,h.map_name_labels,(nodup_eraseDups _).count]
  simp only [List.mem_eraseDups]

/-- The dump, from the calls that were made. -/
theorem Recalls.dump_eq (h : s.Recalls cs) : s.dump =
    printed (defined cs).eraseDups s.sortedLabels ((firsts (referenced cs)).map fun t =>
      (t,decide (t.name ∈ s.unresolved.map LabelLine.name))) := by
  rw [Symbols.dump_eq,h.names,← h.gotos]
  congr 1
  apply List.map_congr_left
  intro t ht
  rw [isNone_eq_unresolved ht]

/-- Tables with the same first declarations print the same labels. -/
theorem Recalls.sortedLabels_eq (hs : s.Recalls cs) (hr : r.Recalls ds)
    (h : ∀ l, l ∈ firsts (declared cs) ↔ l ∈ firsts (declared ds)) :
    s.sortedLabels = r.sortedLabels := by
  apply eq_of_lt hs.sortedLabels_lt hr.sortedLabels_lt
  intro l
  rw [hs.mem_sortedLabels,hr.mem_sortedLabels]
  exact h l

/-- And they leave the same targets unresolved. -/
theorem Recalls.unresolved_eq (hs : s.Recalls cs) (hr : r.Recalls ds)
    (hg : firsts (referenced cs) = firsts (referenced ds))
    (h : ∀ l, l ∈ firsts (declared cs) ↔ l ∈ firsts (declared ds)) :
    s.unresolved = r.unresolved := by
  have hn : ∀ n, n ∈ (declared cs).map LabelLine.name ↔ n ∈ (declared ds).map LabelLine.name := by
    intro n
    calc n ∈ (declared cs).map LabelLine.name
        ↔ n ∈ (firsts (declared cs)).map LabelLine.name := mem_names_firsts.symm
      _ ↔ n ∈ (firsts (declared ds)).map LabelLine.name := by simp only [List.mem_map,h]
      _ ↔ n ∈ (declared ds).map LabelLine.name := mem_names_firsts
  rw [hs.unresolved,hr.unresolved,hg]
  simp only [hn]

end Recalls

/-- The printed table does not tell in which order the labels were declared. It lists each of them
once, in the order of the bytes of their names, and marks the targets that are not resolved. -/
theorem dump_by_first_calls :
    (∀ cs ds : List Call, (defined cs).eraseDups = (defined ds).eraseDups →
      firsts (referenced cs) = firsts (referenced ds) →
      (∀ l, l ∈ firsts (declared cs) ↔ l ∈ firsts (declared ds)) →
      (({} : Symbols).replay cs).dump = (({} : Symbols).replay ds).dump) ∧
    ∀ cs : List Call, ∃ labels : List LabelLine,
      (labels.map LabelLine.name).Pairwise (· < ·) ∧
      (∀ n, (labels.map LabelLine.name).count n =
        if n ∈ (declared cs).map LabelLine.name then 1 else 0) ∧
      (∀ l ∈ labels, firstOf (declared cs) l.name = some l) ∧
      (({} : Symbols).replay cs).dump =
        printed (defined cs).eraseDups labels ((firsts (referenced cs)).map fun t =>
          (t,decide (t.name ∈ (({} : Symbols).replay cs).unresolved.map LabelLine.name))) := by
  constructor
  · intro cs ds hd hg hl
    have hs := recalls_replay cs
    have hr := recalls_replay ds
    rw [hs.dump_eq,hr.dump_eq,hd,hg,hs.sortedLabels_eq hr hl,hs.unresolved_eq hr hg hl]
  · intro cs
    have h := recalls_replay cs
    refine ⟨_,List.pairwise_map.mpr h.sortedLabels_lt,h.count_sortedLabels,?_,h.dump_eq⟩
    intro l hl
    exact firstOf_of_mem_firsts (h.mem_sortedLabels.mp hl)

/-- Two ways to the same table, with the labels declared in either order. -/
def forth : List Call :=
  [.define "x",.declareLabel "a" 2,.referenceLabel "c" 3,.declareLabel "b" 5,.declareLabel "a" 7,
    .referenceLabel "b" 8]

def back : List Call :=
  [.declareLabel "b" 5,.lookup "x",.referenceLabel "c" 3,.referenceLabel "b" 8,.declareLabel "a" 2,
    .define "x",.referenceLabel "c" 9]

theorem dump_of_either_order :
    (defined forth).eraseDups = (defined back).eraseDups ∧
      firsts (referenced forth) = firsts (referenced back) ∧
      firsts (declared forth) = [⟨"a",2⟩,⟨"b",5⟩] ∧ firsts (declared back) = [⟨"b",5⟩,⟨"a",2⟩] ∧
      (({} : Symbols).replay back).dump =
        "Variables:\n  x                     (declared #1)\n" ++
          "Labels:\n  a                     line 2\n  b                     line 5\n" ++
          "Gotos:\n  c                     line 3 (undeclared)\n" ++
          "  b                     line 8 (ok)\n" ∧
      (({} : Symbols).replay forth).dump = (({} : Symbols).replay back).dump := by
  have hd : (defined forth).eraseDups = (defined back).eraseDups := by decide
  have hg : firsts (referenced forth) = firsts (referenced back) := by decide
  have hf : firsts (declared forth) = [⟨"a",2⟩,⟨"b",5⟩] := by decide
  have hb : firsts (declared back) = [⟨"b",5⟩,⟨"a",2⟩] := by decide
  have h := recalls_replay back
  have hlabels : (({} : Symbols).replay back).sortedLabels = [⟨"a",2⟩,⟨"b",5⟩] := by
    apply eq_of_lt h.sortedLabels_lt (by decide)
    intro l
    rw [h.mem_sortedLabels,hb]
    simp [or_comm]
  refine ⟨hd,hg,hf,hb,?_,dump_by_first_calls.1 forth back hd hg ?_⟩
  · rw [dump,labelLines,hlabels]
    decide +kernel
  · intro l
    rw [hf,hb]
    simp [or_comm]

end Symbols
end TeenyTiny

import Mathlib.Data.List.Induction
import Mathlib.Data.List.Nodup
import TeenyTiny.Proofs.Ast

/-! What a program does with names, in the order of its tokens, when that is allowed, and how the
symbol table records it. -/
namespace TeenyTiny
open Text

/-- The place of a name in a program. -/
inductive Event where
  | label (name : Bytes)
  | jump (name : Bytes)
  | assign (name : Bytes)
  | use (name : Bytes)
  deriving DecidableEq, Repr

/-- What an identifier does behind a token of this kind. -/
def Kind.role : Kind → Bytes → Event
  | keyword .label => .label
  | keyword .goto => .jump
  | keyword .let_ | keyword .input => .assign
  | _ => .use

def eventsAfter : (role : Bytes → Event) → List Piece → List Event
  | _,[] => []
  | role,p :: ps =>
    if p.kind = .ident then role (encode p.lexeme) :: eventsAfter p.kind.role ps
    else eventsAfter p.kind.role ps

/-- The events of pieces that stand where a statement or an expression begins. -/
def events (ps : List Piece) : List Event := eventsAfter .use ps

namespace Event

def labelled? : Event → Option Bytes
  | label name => some name
  | _ => none

def jumped? : Event → Option Bytes
  | jump name => some name
  | _ => none

def assigned? : Event → Option Bytes
  | assign name => some name
  | _ => none

theorem labelled?_eq_some {e : Event} {n : Bytes} : e.labelled? = some n ↔ e = label n := by
  cases e <;> simp [labelled?]

theorem jumped?_eq_some {e : Event} {n : Bytes} : e.jumped? = some n ↔ e = jump n := by
  cases e <;> simp [jumped?]

theorem assigned?_eq_some {e : Event} {n : Bytes} : e.assigned? = some n ↔ e = assign n := by
  cases e <;> simp [assigned?]

end Event

def labelled (es : List Event) : List Bytes := es.filterMap Event.labelled?
def jumped (es : List Event) : List Bytes := es.filterMap Event.jumped?
def assigned (es : List Event) : List Bytes := es.filterMap Event.assigned?

@[simp] theorem mem_labelled {es : List Event} {n : Bytes} : n ∈ labelled es ↔ .label n ∈ es := by
  simp [labelled,Event.labelled?_eq_some]

@[simp] theorem mem_jumped {es : List Event} {n : Bytes} : n ∈ jumped es ↔ .jump n ∈ es := by
  simp [jumped,Event.jumped?_eq_some]

@[simp] theorem mem_assigned {es : List Event} {n : Bytes} :
    n ∈ assigned es ↔ .assign n ∈ es := by
  simp [assigned,Event.assigned?_eq_some]

@[simp] theorem labelled_singleton (e : Event) : labelled [e] = e.labelled?.toList := by
  cases e <;> rfl

@[simp] theorem jumped_singleton (e : Event) : jumped [e] = e.jumped?.toList := by
  cases e <;> rfl

@[simp] theorem assigned_singleton (e : Event) : assigned [e] = e.assigned?.toList := by
  cases e <;> rfl

@[simp] theorem labelled_append (es fs : List Event) :
    labelled (es ++ fs) = labelled es ++ labelled fs := List.filterMap_append ..

@[simp] theorem jumped_append (es fs : List Event) :
    jumped (es ++ fs) = jumped es ++ jumped fs := List.filterMap_append ..

@[simp] theorem assigned_append (es fs : List Event) :
    assigned (es ++ fs) = assigned es ++ assigned fs := List.filterMap_append ..

/-- The names of a program are used as they have to be. -/
structure WellNamed (es : List Event) : Prop where
  labels_allowed : ∀ n, .label n ∈ es ∨ .jump n ∈ es → isReserved .label n = false
  variables_allowed : ∀ n, .assign n ∈ es → isReserved .variable n = false
  labels_once : (labelled es).Nodup
  uses_assigned : ∀ before n after, es = before ++ .use n :: after → .assign n ∈ before
  jumps_labelled : ∀ n, .jump n ∈ es → .label n ∈ es

/-- An event is allowed behind these others. A jump may go to a label that is still to come. -/
def Event.Allowed (before : List Event) : Event → Prop
  | label n => isReserved .label n = false ∧ .label n ∉ before
  | jump n => isReserved .label n = false
  | assign n => isReserved .variable n = false
  | use n => .assign n ∈ before

/-- Every event is allowed when its turn comes. -/
def AllowedAfter : (before : List Event) → List Event → Prop
  | _,[] => True
  | before,e :: es => e.Allowed before ∧ AllowedAfter (before ++ [e]) es

@[simp] theorem allowedAfter_nil (before : List Event) : AllowedAfter before [] := trivial

@[simp] theorem allowedAfter_singleton {before : List Event} {e : Event} :
    AllowedAfter before [e] ↔ e.Allowed before := by simp [AllowedAfter]

theorem allowedAfter_append {before es fs : List Event} :
    AllowedAfter before (es ++ fs) ↔ AllowedAfter before es ∧ AllowedAfter (before ++ es) fs := by
  induction es generalizing before with
  | nil => simp
  | cons e es ih => simp [AllowedAfter,ih,and_assoc]

theorem allowed_of_split {before es fs : List Event} {e : Event}
    (h : AllowedAfter before (es ++ e :: fs)) : e.Allowed (before ++ es) :=
  (allowedAfter_append.mp h).2.1

theorem allowed_of_mem {before es : List Event} (h : AllowedAfter before es) {e : Event}
    (he : e ∈ es) : ∃ earlier, e.Allowed earlier := by
  obtain ⟨as,bs,rfl⟩ := List.append_of_mem he
  exact ⟨_,allowed_of_split h⟩

theorem labelled_nodup {before es : List Event} (h : AllowedAfter before es)
    (hb : (labelled before).Nodup) : (labelled (before ++ es)).Nodup := by
  induction es generalizing before with
  | nil => simpa using hb
  | cons e es ih =>
    rw [List.append_cons]
    apply ih h.2
    cases e with
    | label n =>
      have hn : n ∉ labelled before := fun hm => h.1.2 (mem_labelled.mp hm)
      rw [labelled_append,labelled_singleton]
      refine List.nodup_append.mpr ⟨hb,by simp [Event.labelled?],?_⟩
      rintro m hm k hk rfl
      obtain rfl : m = n := by simpa [Event.labelled?] using hk
      exact hn hm
    | jump n | assign n | use n => simpa [Event.labelled?] using hb

theorem WellNamed.allowed {es before after : List Event} {e : Event} (h : WellNamed es)
    (hs : es = before ++ e :: after) : e.Allowed before := by
  have he : e ∈ es := by simp [hs]
  cases e with
  | label n =>
    refine ⟨h.labels_allowed n (.inl he),fun hm => ?_⟩
    have hn := h.labels_once
    rw [hs,List.append_cons,labelled_append,labelled_append] at hn
    have hd := (List.nodup_append.mp (List.nodup_append.mp hn).1).2.2
    exact hd n (mem_labelled.mpr hm) n (mem_labelled.mpr (List.mem_singleton_self _)) rfl
  | jump n => exact h.labels_allowed n (.inr he)
  | assign n => exact h.variables_allowed n he
  | use n => exact h.uses_assigned before n after hs

/-- The rules on names are those that are checked on the way, and that jumps find their labels. -/
theorem wellNamed_iff {es : List Event} :
    WellNamed es ↔ AllowedAfter [] es ∧ ∀ n, .jump n ∈ es → .label n ∈ es := by
  constructor
  · intro h
    refine ⟨?_,h.jumps_labelled⟩
    have hall : ∀ before fs, es = before ++ fs → AllowedAfter before fs := by
      intro before fs hs
      induction fs generalizing before with
      | nil => trivial
      | cons e fs ih => exact ⟨h.allowed hs,ih _ (by rw [hs,List.append_cons])⟩
    exact hall [] es rfl
  · rintro ⟨h,hj⟩
    refine ⟨?_,?_,?_,?_,hj⟩
    · rintro n (hn | hn)
      · obtain ⟨_,ha⟩ := allowed_of_mem h hn
        exact ha.1
      · obtain ⟨_,ha⟩ := allowed_of_mem h hn
        exact ha
    · intro n hn
      obtain ⟨_,ha⟩ := allowed_of_mem h hn
      exact ha
    · simpa using labelled_nodup h List.nodup_nil
    · rintro before n after rfl
      exact allowed_of_split h

theorem eraseDups_concat_of_mem {α : Type} [BEq α] [LawfulBEq α] {ns : List α} {n : α}
    (h : n ∈ ns) : (ns ++ [n]).eraseDups = ns.eraseDups := by
  simp [List.eraseDups_append,List.removeAll,h]

theorem eraseDups_concat_of_not_mem {α : Type} [BEq α] [LawfulBEq α] {ns : List α} {n : α}
    (h : n ∉ ns) : (ns ++ [n]).eraseDups = ns.eraseDups ++ [n] := by
  simp [List.eraseDups_append,List.eraseDups_cons,List.removeAll,h]

theorem nodup_eraseDups {α : Type} [BEq α] [LawfulBEq α] (ns : List α) : ns.eraseDups.Nodup := by
  induction ns using List.reverseRecOn with
  | nil => exact List.nodup_nil
  | append_singleton ns n ih =>
    by_cases h : n ∈ ns
    · rwa [eraseDups_concat_of_mem h]
    · rw [eraseDups_concat_of_not_mem h]
      refine List.nodup_append.mpr ⟨ih,List.nodup_singleton n,fun m hm k hk he => h ?_⟩
      rw [← List.mem_singleton.mp hk,← he]
      exact List.mem_eraseDups.mp hm

namespace Symbols

/-- The table after these events: each list has the names in the order of their first events. -/
structure Records (s : Symbols) (es : List Event) : Prop where
  names : s.names = (assigned es).eraseDups
  labels : s.labels.map LabelLine.name = labelled es
  gotos : s.gotos.map LabelLine.name = (jumped es).eraseDups

theorem records_empty : Records {} [] := ⟨rfl,rfl,rfl⟩

variable {s : Symbols} {es : List Event} {n : Bytes} {line : Int}

theorem Records.isDefined (h : s.Records es) : s.isDefined n = true ↔ .assign n ∈ es := by
  rw [Symbols.isDefined,h.names,List.contains_iff_mem,List.mem_eraseDups,mem_assigned]

theorem Records.use (h : s.Records es) : s.Records (es ++ [.use n]) := by
  obtain ⟨hn,hl,hg⟩ := h
  exact ⟨by simpa [Event.assigned?] using hn,by simpa [Event.labelled?] using hl,
    by simpa [Event.jumped?] using hg⟩

theorem Records.define (h : s.Records es) : (s.define n).2.Records (es ++ [.assign n]) := by
  have hl : s.labels.map LabelLine.name = labelled (es ++ [.assign n]) := by
    simpa [Event.labelled?] using h.labels
  have hg : s.gotos.map LabelLine.name = (jumped (es ++ [.assign n])).eraseDups := by
    simpa [Event.jumped?] using h.gotos
  by_cases hn : s.isDefined n
  · have hs : s.define n = (false,s) := if_pos hn
    rw [hs]
    refine ⟨?_,hl,hg⟩
    rw [assigned_append,h.names]
    exact (eraseDups_concat_of_mem (mem_assigned.mpr (h.isDefined.mp hn))).symm
  · have hs : s.define n = (true,{ s with names := s.names ++ [n] }) := if_neg hn
    rw [hs]
    refine ⟨?_,hl,hg⟩
    rw [assigned_append,h.names]
    refine (eraseDups_concat_of_not_mem fun hm => hn ?_).symm
    exact h.isDefined.mpr (mem_assigned.mp hm)

theorem Records.findLabel? (h : s.Records es) : s.findLabel? n = none ↔ .label n ∉ es := by
  rw [← mem_labelled,← h.labels]
  simp [Symbols.findLabel?]

theorem Records.declareLabel (h : s.Records es) (hn : .label n ∉ es) :
    (s.declareLabel n line).1 = none ∧
      (s.declareLabel n line).2.Records (es ++ [.label n]) := by
  have hf := h.findLabel?.mpr hn
  have ha : assigned (es ++ [.label n]) = assigned es := by simp [Event.assigned?]
  have hj : jumped (es ++ [.label n]) = jumped es := by simp [Event.jumped?]
  refine ⟨by simp [Symbols.declareLabel,hf],?_,?_,?_⟩
  · simp [Symbols.declareLabel,hf,ha,h.names]
  · simp [Symbols.declareLabel,hf,h.labels,Event.labelled?]
  · simp [Symbols.declareLabel,hf,hj,h.gotos]

theorem Records.not_mem_of_declareLabel (h : s.Records es)
    (hn : (s.declareLabel n line).1 = none) : .label n ∉ es := by
  rw [← h.findLabel?]
  cases hf : s.findLabel? n with
  | none => rfl
  | some first => simp [Symbols.declareLabel,hf] at hn

theorem Records.referenceLabel (h : s.Records es) :
    (s.referenceLabel n line).Records (es ++ [.jump n]) := by
  have ha : s.names = (assigned (es ++ [.jump n])).eraseDups := by
    simpa [Event.assigned?] using h.names
  have hl : s.labels.map LabelLine.name = labelled (es ++ [.jump n]) := by
    simpa [Event.labelled?] using h.labels
  have hg : s.gotos.any (·.name == n) = true ↔ n ∈ jumped es := by
    rw [← List.mem_eraseDups,← h.gotos]
    simp
  by_cases hn : s.gotos.any (·.name == n)
  · have hs : s.referenceLabel n line = s := if_pos hn
    rw [hs]
    refine ⟨ha,hl,?_⟩
    rw [jumped_append,h.gotos]
    exact (eraseDups_concat_of_mem (hg.mp hn)).symm
  · have hs : s.referenceLabel n line = { s with gotos := s.gotos ++ [⟨n,line⟩] } := if_neg hn
    rw [hs]
    refine ⟨ha,hl,?_⟩
    rw [jumped_append,List.map_append,h.gotos]
    exact (eraseDups_concat_of_not_mem (mt hg.mpr hn)).symm

theorem names_declareLabel (s : Symbols) (n : Bytes) (line : Int) :
    (s.declareLabel n line).2.names = s.names := by
  unfold declareLabel
  split <;> rfl

theorem names_referenceLabel (s : Symbols) (n : Bytes) (line : Int) :
    (s.referenceLabel n line).names = s.names := by
  unfold referenceLabel
  split <;> rfl

/-- Nothing is unresolved when every jump has its label. -/
theorem Records.unresolved (h : s.Records es) :
    s.unresolved = [] ↔ ∀ n, .jump n ∈ es → .label n ∈ es := by
  have hj : ∀ n, .jump n ∈ es ↔ ∃ target ∈ s.gotos, target.name = n := by
    intro n
    rw [← mem_jumped,← List.mem_eraseDups,← h.gotos]
    simp
  simp only [Symbols.unresolved,List.filter_eq_nil_iff,Option.isNone_iff_eq_none,h.findLabel?,
    not_not,hj]
  constructor
  · rintro hu n ⟨target,ht,rfl⟩
    exact hu target ht
  · intro hu target ht
    exact hu target.name ⟨target,ht,rfl⟩

end Symbols
end TeenyTiny

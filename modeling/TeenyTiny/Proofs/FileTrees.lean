import TeenyTiny.Model.FileTree
import Mathlib.Data.List.Induction
import Mathlib.Logic.Function.Iterate

/-! Trees of files: what a change does to the place it is made at and to all others, and when a
path still leads to the same place afterwards. The trees are those that arise by naming files in
directories; nothing lies below a place that is no directory. -/
namespace TeenyTiny
open Text

/-- A path without parts is a row of slashes. -/
theorem Path.parts_ne_nil {p : Path} (hp : p ≠ []) (hr : p.isAbsolute = false) :
    Path.parts p ≠ [] := by
  obtain ⟨b,rest,rfl⟩ := List.exists_cons_of_ne_nil hp
  have hb : b ≠ Path.slash := by
    rintro rfl
    simp [Path.isAbsolute] at hr
  have hmem : ∃ part, part ≠ [] ∧ part ∈ splitOn Path.slash (b :: rest) := by
    unfold splitOn
    rw [List.foldr_cons,if_neg hb]
    split
    · exact ⟨[b],by simp,by simp⟩
    · exact ⟨_,List.cons_ne_nil _ _,List.mem_cons_self⟩
  obtain ⟨part,hpart,hm⟩ := hmem
  intro h
  have : part ∈ Path.parts (b :: rest) := List.mem_filter.mpr ⟨hm,by simpa using hpart⟩
  simp [h] at this

namespace Model.FileTree
variable {t : FileTree} {place : Place}

theorem bind_eq_ok {α β : Type} {x : Except Errno α} {f : α → Except Errno β} {b : β} :
    x >>= f = .ok b ↔ ∃ a, x = .ok a ∧ f a = .ok b := by
  cases x with
  | error e => simp [bind,Except.bind]
  | ok a => simp [bind,Except.bind]

@[simp] theorem numberAt?_nil (t : FileTree) : t.numberAt? [] = some 0 := rfl

@[simp] theorem node?_zero (t : FileTree) : t.node? 0 = some (.directory 0o755) := rfl

@[simp] theorem get?_nil (t : FileTree) : t.get? [] = some (.directory 0o755) := rfl

theorem ne_nil_of_get? (h : t.get? place = none) : place ≠ [] := by
  rintro rfl
  simp at h

theorem ne_nil_of_isDirectoryAt (h : t.isDirectoryAt place = false) : place ≠ [] := by
  rintro rfl
  simp [isDirectoryAt,Node.isDirectory] at h

theorem mem_of_numberAt? {number : Nat} (hp : place ≠ []) (h : t.numberAt? place = some number) :
    (place,number) ∈ t.names := by
  rw [numberAt?,if_neg hp,Option.map_eq_some_iff] at h
  obtain ⟨⟨other,n⟩,hf,rfl⟩ := h
  have hother : other = place := by simpa using List.find?_some hf
  exact hother ▸ List.mem_of_find?_eq_some hf

/-- The names that are left when one is taken away. -/
theorem numberAt?_erase (hp : place ≠ []) (q : Place) :
    (t.erase place).numberAt? q = if q = place then none else t.numberAt? q := by
  unfold numberAt? erase
  dsimp only
  rw [List.find?_filter]
  split <;> rename_i hq
  · rw [if_neg (hq ▸ hp.symm)]
  · split <;> rename_i hqp
    · subst hqp
      rw [List.find?_eq_none.mpr (by simp)]
      rfl
    · congr 1
      congr 1
      funext e
      by_cases he : e.1 = q <;> simp [he,hqp]

theorem numberAt?_tie (hp : place ≠ []) (number : Nat) (q : Place) :
    (t.tie place number).numberAt? q = if q = place then some number else t.numberAt? q := by
  split <;> rename_i hq
  · subst hq
    simp [numberAt?,tie,hp]
  · have h := numberAt?_erase (t := t) hp q
    rw [if_neg hq] at h
    rw [← h]
    unfold numberAt? tie
    simp [Ne.symm hq]

/-- Every name leads to a number that was given away, and lies in a directory. -/
structure WellFormed (t : FileTree) : Prop where
  next_pos : 0 < t.next
  number_lt : ∀ e ∈ t.names, e.2 < t.next
  parent : ∀ e ∈ t.names, t.isDirectoryAt e.1.dropLast = true

namespace WellFormed

theorem numberAt?_lt (h : t.WellFormed) {number : Nat} (hn : t.numberAt? place = some number) :
    number < t.next := by
  by_cases hp : place = []
  · subst hp
    simp only [numberAt?_nil,Option.some.injEq] at hn
    exact hn ▸ h.next_pos
  · exact h.number_lt _ (mem_of_numberAt? hp hn)

theorem isDirectoryAt_dropLast (h : t.WellFormed) {node : Node} (hn : t.get? place = some node) :
    t.isDirectoryAt place.dropLast = true := by
  by_cases hp : place = []
  · subst hp
    rfl
  · obtain ⟨number,hnumber,-⟩ := Option.bind_eq_some_iff.mp hn
    exact h.parent _ (mem_of_numberAt? hp hnumber)

/-- Above every name there are directories. -/
theorem isDirectoryAt_of_below (h : t.WellFormed) {below : Place} (hb : below ≠ [])
    {number : Nat} (hm : (place ++ below,number) ∈ t.names) : t.isDirectoryAt place = true := by
  -- on the names below, the last one first: each of them lies in the one before
  induction below using List.reverseRecOn generalizing number with
  | nil => exact absurd rfl hb
  | append_singleton above last ih =>
    have hdir := h.parent _ hm
    rw [← List.append_assoc,List.dropLast_concat] at hdir
    by_cases habove : above = []
    · simpa [habove] using hdir
    · obtain ⟨node,hnode,-⟩ := (Option.any_eq_true _ _).mp hdir
      obtain ⟨n,hn,-⟩ := Option.bind_eq_some_iff.mp hnode
      exact ih habove (mem_of_numberAt? (by simp [habove]) hn)

end WellFormed

/-! ## Walks -/

/-- Is there a link? -/
def isLinkAt (t : FileTree) (place : Place) : Bool :=
  match t.get? place with
  | some (.link _) => true
  | _ => false

/-- The walks that end, step by step. The numbers bound the steps and the links. -/
inductive Leads (t : FileTree) (follow : Bool) :
    (fuel links : Nat) → Place → List Bytes → Place → Prop
  | done {fuel links place} : Leads t follow (fuel + 1) links place [] place
  | stay {fuel links place rest q} (here : t.isDirectoryAt place = true)
      (next : Leads t follow fuel links place rest q) :
      Leads t follow (fuel + 1) links place ([Path.dot] :: rest) q
  | up {fuel links place rest q} (here : t.isDirectoryAt place = true)
      (next : Leads t follow fuel links place.dropLast rest q) :
      Leads t follow (fuel + 1) links place ([Path.dot,Path.dot] :: rest) q
  | enter {fuel links place part rest q} (here : t.isDirectoryAt place = true)
      (name : part ≠ [Path.dot] ∧ part ≠ [Path.dot,Path.dot] ∧ part.length ≤ maxName)
      (there : t.isLinkAt (place ++ [part]) = false)
      (next : Leads t follow fuel links (place ++ [part]) rest q) :
      Leads t follow (fuel + 1) links place (part :: rest) q
  | stop {fuel links place part target} (here : t.isDirectoryAt place = true)
      (name : part ≠ [Path.dot] ∧ part ≠ [Path.dot,Path.dot] ∧ part.length ≤ maxName)
      (there : t.get? (place ++ [part]) = some (.link target)) (last : follow = false) :
      Leads t follow (fuel + 1) links place [part] (place ++ [part])
  | through {fuel links place part target rest q} (here : t.isDirectoryAt place = true)
      (name : part ≠ [Path.dot] ∧ part ≠ [Path.dot,Path.dot] ∧ part.length ≤ maxName)
      (there : t.get? (place ++ [part]) = some (.link target))
      (more : rest ≠ [] ∨ follow = true)
      (next : Leads t follow fuel links (if target.isAbsolute then [] else place)
        (Path.parts target ++ rest) q) :
      Leads t follow (fuel + 1) (links + 1) place (part :: rest) q

theorem leads_of_walk {follow : Bool} {fuel links : Nat} {parts : List Bytes} {q : Place}
    (h : t.walk follow fuel links place parts = .ok q) :
    Leads t follow fuel links place parts q := by
  induction fuel generalizing links place parts with
  | zero => simp [walk] at h
  | succ fuel ih =>
    cases parts with
    | nil =>
      simp only [walk,Except.ok.injEq] at h
      exact h ▸ .done
    | cons part rest =>
      simp only [walk] at h
      split at h
      · cases h
      · rename_i node hnode
        split at h
        · cases h
        rename_i hdir
        have here : t.isDirectoryAt place = true := by simpa [isDirectoryAt,hnode] using hdir
        split at h
        · rename_i hdot
          exact hdot ▸ .stay here (ih h)
        split at h
        · rename_i hdots
          exact hdots ▸ .up here (ih h)
        split at h
        · cases h
        rename_i hdot hdots hlong
        have name : part ≠ [Path.dot] ∧ part ≠ [Path.dot,Path.dot] ∧ part.length ≤ maxName :=
          ⟨hdot,hdots,by omega⟩
        split at h
        · rename_i target htarget
          split at h
          · rename_i hlast
            simp only [Bool.and_eq_true,List.isEmpty_iff,Bool.not_eq_true'] at hlast
            simp only [Except.ok.injEq] at h
            rw [← h,hlast.1]
            exact .stop here name htarget hlast.2
          · rename_i hmore
            split at h
            · cases h
            · obtain ⟨links,rfl⟩ := Nat.exists_eq_succ_of_ne_zero ‹links ≠ 0›
              refine .through here name htarget ?_ (ih h)
              simpa [-not_and,Classical.not_and_iff_not_or_not] using hmore
        · rename_i hother
          refine .enter here name ?_ (ih h)
          unfold isLinkAt
          split
          · exact absurd ‹_› (hother _)
          · rfl

theorem walk_of_leads {follow : Bool} {fuel links : Nat} {parts : List Bytes} {q : Place}
    (h : Leads t follow fuel links place parts q) :
    t.walk follow fuel links place parts = .ok q := by
  have hsome : ∀ {place : Place}, t.isDirectoryAt place = true →
      ∃ node, t.get? place = some node ∧ node.isDirectory = true := by
    intro place h
    exact (Option.any_eq_true _ _).mp h
  induction h with
  | done => rfl
  | stay here next ih =>
    obtain ⟨node,hnode,hdir⟩ := hsome here
    simp [walk,hnode,hdir,ih]
  | up here next ih =>
    obtain ⟨node,hnode,hdir⟩ := hsome here
    simp [walk,hnode,hdir,ih]
  | enter here name there next ih =>
    obtain ⟨node,hnode,hdir⟩ := hsome here
    obtain ⟨hdot,hdots,hlong⟩ := name
    simp only [walk,hnode,hdir,hdot,hdots,Nat.not_lt.mpr hlong,Bool.not_true,if_false,
      Bool.false_eq_true]
    split
    · rename_i hlink
      simp [isLinkAt,hlink] at there
    · exact ih
  | stop here name there last =>
    obtain ⟨node,hnode,hdir⟩ := hsome here
    simp [walk,hnode,hdir,name,there,last]
  | through here name there more next ih =>
    obtain ⟨node,hnode,hdir⟩ := hsome here
    simp only [walk,hnode,hdir,name,there,Nat.not_lt.mpr name.2.2,Bool.not_true,if_false,
      Bool.false_eq_true]
    rw [if_neg (by simpa [← not_or,imp_iff_not_or] using more),if_neg (Nat.succ_ne_zero _)]
    exact ih

theorem isDirectoryAt_of_free (h : t.get? place = none) : t.isDirectoryAt place = false := by
  simp [isDirectoryAt,h]

theorem isLinkAt_of_free (h : t.get? place = none) : t.isLinkAt place = false := by
  simp [isLinkAt,h]

/-- A change that leaves directories and links as they are and makes no links. -/
def Keeps (t t' : FileTree) : Prop :=
  ∀ q, t'.get? q = t.get? q ∨
    t.isDirectoryAt q = false ∧ t.isLinkAt q = false ∧ t'.isLinkAt q = false

namespace Keeps
variable {t' : FileTree}

theorem isDirectoryAt (h : Keeps t t') (hq : t.isDirectoryAt place = true) :
    t'.isDirectoryAt place = true := by
  rcases h place with heq | ⟨hdir,-⟩
  · rw [← hq,FileTree.isDirectoryAt,FileTree.isDirectoryAt,heq]
  · simp [hq] at hdir

theorem get?_link (h : Keeps t t') {target : Path} (hq : t.get? place = some (.link target)) :
    t'.get? place = some (.link target) := by
  rcases h place with heq | ⟨-,hlink,-⟩
  · rw [heq,hq]
  · simp [isLinkAt,hq] at hlink

theorem isLinkAt (h : Keeps t t') (hq : t.isLinkAt place = false) :
    t'.isLinkAt place = false := by
  rcases h place with heq | ⟨-,-,hlink⟩
  · rw [← hq,FileTree.isLinkAt,FileTree.isLinkAt,heq]
  · exact hlink

/-- Every walk that ended ends where it did before. -/
theorem leads (h : Keeps t t') {follow : Bool} {fuel links : Nat} {parts : List Bytes} {q : Place}
    (hl : Leads t follow fuel links place parts q) : Leads t' follow fuel links place parts q := by
  induction hl with
  | done => exact .done
  | stay here next ih => exact .stay (h.isDirectoryAt here) ih
  | up here next ih => exact .up (h.isDirectoryAt here) ih
  | enter here name there next ih => exact .enter (h.isDirectoryAt here) name (h.isLinkAt there) ih
  | stop here name there last => exact .stop (h.isDirectoryAt here) name (h.get?_link there) last
  | through here name there more next ih =>
    exact .through (h.isDirectoryAt here) name (h.get?_link there) more ih

theorem locate (h : Keeps t t') {here : Place} {follow : Bool} {p : Path} {q : Place}
    (hl : t.locate here follow p = .ok q) : t'.locate here follow p = .ok q := by
  unfold FileTree.locate at hl ⊢
  split_ifs at hl ⊢
  all_goals exact walk_of_leads (h.leads (leads_of_walk hl))

end Keeps

/-- Where no link is, following one makes no difference. -/
theorem Leads.follow {follow : Bool} {fuel links : Nat} {parts : List Bytes} {q : Place}
    (h : Leads t follow fuel links place parts q) (hq : t.isLinkAt q = false) :
    Leads t true fuel links place parts q := by
  induction h with
  | done => exact .done
  | stay here next ih => exact .stay here (ih hq)
  | up here next ih => exact .up here (ih hq)
  | enter here name there next ih => exact .enter here name there (ih hq)
  | stop here name there last => simp [isLinkAt,there] at hq
  | through here name there more next ih => exact .through here name there (.inr rfl) (ih hq)

theorem locate_follow {here : Place} {p : Path} {q : Place} (h : t.locate here false p = .ok q)
    (hq : t.isLinkAt q = false) (follow : Bool) : t.locate here follow p = .ok q := by
  cases follow with
  | false => exact h
  | true =>
    unfold locate at h ⊢
    split_ifs at h ⊢
    all_goals exact walk_of_leads ((leads_of_walk h).follow hq)

/-- Where a walk ends, or above it, there is a directory, if it starts so. -/
theorem Leads.parent {follow : Bool} {fuel links : Nat} {parts : List Bytes} {q : Place}
    (hw : t.WellFormed) (h : Leads t follow fuel links place parts q)
    (hp : t.isDirectoryAt place.dropLast = true) : t.isDirectoryAt q.dropLast = true := by
  induction h with
  | done => exact hp
  | stay here next ih => exact ih hp
  | up here next ih =>
    obtain ⟨node,hnode,-⟩ := (Option.any_eq_true _ _).mp hp
    exact ih (hw.isDirectoryAt_dropLast hnode)
  | enter here name there next ih =>
    apply ih
    rwa [List.dropLast_concat]
  | stop here name there last => rwa [List.dropLast_concat]
  | through here name there more next ih =>
    apply ih
    split
    · rfl
    · exact hp

/-- The place that a path names lies in a directory. -/
theorem isDirectoryAt_of_locate (hw : t.WellFormed) {here : Place} {follow : Bool} {p : Path}
    {q : Place} (h : t.locate here follow p = .ok q) : t.isDirectoryAt q.dropLast = true := by
  unfold locate at h
  split_ifs at h with h0 hnil hlong habs
  · exact (leads_of_walk h).parent hw rfl
  · -- a relative path has a part, so that the walk looks at the directory it starts in
    have hparts : Path.parts p ≠ [] := Path.parts_ne_nil hnil (by simpa using habs)
    have hl := leads_of_walk h
    obtain ⟨part,rest,heq⟩ := List.exists_cons_of_ne_nil hparts
    rw [heq] at hl
    have hhere : t.isDirectoryAt here = true := by cases hl <;> assumption
    obtain ⟨node,hnode,-⟩ := (Option.any_eq_true _ _).mp hhere
    exact hl.parent hw (hw.isDirectoryAt_dropLast hnode)

/-! ## A new node -/

theorem node?_cons (hk : 0 < t.next) (node : Node) (k : Nat) :
    ({ t with nodes := (t.next,node) :: t.nodes } : FileTree).node? k =
      if k = t.next then some node else t.node? k := by
  unfold node?
  split <;> rename_i h0
  · rw [if_neg (by omega)]
  · by_cases hk : k = t.next
    · simp [hk]
    · simp [hk,Ne.symm hk]

theorem node?_setNode {number : Nat} (hn : number ≠ 0) (node : Node) (k : Nat) :
    (t.setNode number node).node? k = if k = number then some node else t.node? k := by
  unfold node? setNode
  dsimp only
  split <;> rename_i h0
  · rw [if_neg (by omega)]
  · by_cases hk : k = number
    · simp [hk]
    · rw [if_neg hk,List.find?_cons_of_neg (by simpa using Ne.symm hk),List.find?_filter]
      congr 1
      congr 1
      funext e
      by_cases he : e.1 = k <;> simp [he,hk]

/-- One tree is the other one with a new node at a place. -/
structure Planted (t : FileTree) (place : Place) (node : Node) (t' : FileTree) : Prop where
  names : t'.names = (t.tie place t.next).names
  node : ∀ k, t'.node? k = if k = t.next then some node else t.node? k
  next : t'.next = t.next + 1

namespace Planted
variable {node : Node} {t' : FileTree}

theorem insert (hw : t.WellFormed) (place : Place) (node : Node) :
    Planted t place node (t.insert place node) :=
  ⟨rfl,node?_cons hw.next_pos node,rfl⟩

/-- The new node may be changed. -/
theorem setNode (h : Planted t place node t') (hw : t.WellFormed) (node' : Node) :
    Planted t place node' (t'.setNode t.next node') := by
  refine ⟨h.names,fun k => ?_,h.next⟩
  rw [node?_setNode (Nat.ne_of_gt hw.next_pos),h.node]
  split <;> rfl

theorem numberAt? (h : Planted t place node t') (hp : place ≠ []) (q : Place) :
    t'.numberAt? q = if q = place then some t.next else t.numberAt? q := by
  rw [← numberAt?_tie hp,FileTree.numberAt?,FileTree.numberAt?,h.names]

/-- What a number leads to that was given away before. -/
theorem bind_node? (h : Planted t place node t') (hw : t.WellFormed) (q : Place) :
    (t.numberAt? q).bind t'.node? = t.get? q := by
  cases hq : t.numberAt? q with
  | none => simp [FileTree.get?,hq]
  | some k =>
    have hk : k < t.next := hw.numberAt?_lt hq
    rw [FileTree.get?,hq,Option.bind_some,Option.bind_some,h.node,if_neg (by omega)]

theorem get? (h : Planted t place node t') (hw : t.WellFormed) (hp : place ≠ []) (q : Place) :
    t'.get? q = if q = place then some node else t.get? q := by
  rw [FileTree.get?,h.numberAt? hp]
  split
  · simp [h.node]
  · exact h.bind_node? hw q

/-- A new node in the place of no directory keeps the names in directories. -/
theorem wellFormed (h : Planted t place node t') (hw : t.WellFormed)
    (hno : t.isDirectoryAt place = false) (hdir : t.isDirectoryAt place.dropLast = true) :
    t'.WellFormed := by
  have hother : ∀ q, t.isDirectoryAt q = true → t'.isDirectoryAt q = true := by
    intro q hq
    have hne : q ≠ place := by
      rintro rfl
      simp [hq] at hno
    rwa [isDirectoryAt,h.get? hw (ne_nil_of_isDirectoryAt hno),if_neg hne]
  refine ⟨by rw [h.next]; omega,?_,?_⟩
  all_goals
    intro e he
    rw [h.names] at he
    rcases List.mem_cons.mp he with rfl | he
  · rw [h.next]
    exact Nat.lt_succ_self _
  · rw [h.next]
    exact Nat.lt_succ_of_lt (hw.number_lt e (List.mem_filter.mp he).1)
  · exact hother _ hdir
  · exact hother _ (hw.parent e (List.mem_filter.mp he).1)

theorem keeps (h : Planted t place node t') (hw : t.WellFormed)
    (hno : t.isDirectoryAt place = false) (hlink : t.isLinkAt place = false)
    (hnode : ∀ target, node ≠ .link target) : Keeps t t' := by
  intro q
  have hget := h.get? hw (ne_nil_of_isDirectoryAt hno) q
  by_cases hq : q = place
  · subst hq
    rw [if_pos rfl] at hget
    refine .inr ⟨hno,hlink,?_⟩
    unfold isLinkAt
    rw [hget]
    split
    · rename_i heq
      exact absurd (Option.some.inj heq) (hnode _)
    · rfl
  · exact .inl (by rw [hget,if_neg hq])

end Planted

/-! ## A file that is written at a new place -/

/-- What is no directory gets its new name, unless it has it already. -/
theorem rename_file_ok {here : Place} {source p : Path} {number : Nat} {node : Node}
    {last : FileTree} (hfind : t.find here false source = .ok (place,number,node))
    (hnode : node.isDirectory = false) (hr : t.rename here source p = .ok last) :
    ∃ target, t.locate here false p = .ok target ∧ hasTrailingSlash p = false ∧
      (t.numberAt? target = some number ∧ last = t ∨
        (t.get? target = none ∨ t.numberAt? target ≠ some number) ∧
          t.isDirectoryAt target = false ∧ last = t.move place target) := by
  unfold rename at hr
  obtain ⟨found,hfound,hr⟩ := bind_eq_ok.mp hr
  cases hfind.symm.trans hfound
  obtain ⟨target,htarget,hr⟩ := bind_eq_ok.mp hr
  simp only [hnode,Bool.false_and,Bool.not_false,Bool.and_true,Bool.true_and,Bool.false_eq_true,
    if_false] at hr
  split at hr
  · cases hr
  rename_i hslash
  refine ⟨target,htarget,by simpa using hslash,?_⟩
  split at hr
  · rename_i other old hother hold
    split at hr
    · rename_i hsame
      cases hr
      exact .inl ⟨hsame ▸ hother,rfl⟩
    rename_i hdiff
    split at hr
    · cases hr
    rename_i hdir
    simp only [hdir,Bool.false_and,Bool.false_eq_true,if_false] at hr
    cases hr
    exact .inr ⟨.inr (by simpa [hother] using hdiff),by simpa [isDirectoryAt,hold] using hdir,rfl⟩
  · rename_i hnone
    cases hr
    have hget : t.get? target = none := by
      cases hn : t.numberAt? target with
      | none => simp [get?,hn]
      | some k =>
        cases hg : t.get? target with
        | none => rfl
        | some old => exact absurd hg (hnone k old hn)
    exact .inr ⟨.inl hget,by simp [isDirectoryAt,hget],rfl⟩

theorem get?_erase_of_free (hfree : t.get? place = none) (q : Place) :
    (t.erase place).get? q = t.get? q := by
  change ((t.erase place).numberAt? q).bind t.node? = t.get? q
  rw [numberAt?_erase (ne_nil_of_get? hfree)]
  split <;> rename_i hq
  · rw [hq,hfree]
    rfl
  · rfl

theorem WellFormed.erase_of_free (hw : t.WellFormed) (hfree : t.get? place = none) :
    (t.erase place).WellFormed := by
  refine ⟨hw.next_pos,fun e he => hw.number_lt e (List.mem_filter.mp he).1,fun e he => ?_⟩
  rw [isDirectoryAt,get?_erase_of_free hfree]
  exact hw.parent e (List.mem_filter.mp he).1

namespace Planted
variable {t' : FileTree} {mode : Nat} {block : ByteArray} {here : Place} {temporary : Path}
  (h : Planted t place (.file mode block) t') (hw : t.WellFormed)

include h hw

/-- A path to a place where no directory and no link was leads to the file there. -/
theorem find (hno : t.isDirectoryAt place = false) (hlink : t.isLinkAt place = false)
    (htemp : t.locate here false temporary = .ok place)
    (hslash : hasTrailingSlash temporary = false) (follow : Bool) :
    t'.find here follow temporary = .ok (place,t.next,.file mode block) := by
  have hp := ne_nil_of_isDirectoryAt hno
  have hn := h.numberAt? hp place
  have hget := h.get? hw hp place
  rw [if_pos rfl] at hn hget
  have hkeep : Keeps t t' := h.keeps hw hno hlink fun target => by simp
  have hlocate : t'.locate here follow temporary = .ok place :=
    locate_follow (hkeep.locate htemp) (by simp [isLinkAt,hget]) follow
  unfold FileTree.find
  refine bind_eq_ok.mpr ⟨place,hlocate,?_⟩
  simp [hn,hget,hslash]
  rfl

variable (hfree : t.get? place = none)
include hfree

/-- Without its name, the new file is gone. -/
theorem get?_erase (q : Place) : (t'.erase place).get? q = t.get? q := by
  have hp := ne_nil_of_get? hfree
  change ((t'.erase place).numberAt? q).bind t'.node? = t.get? q
  rw [numberAt?_erase hp]
  split <;> rename_i hq
  · rw [hq,hfree]
    rfl
  · rw [h.numberAt? hp,if_neg hq]
    exact h.bind_node? hw q

theorem wellFormed_erase : (t'.erase place).WellFormed := by
  have hmem : ∀ e ∈ (t'.erase place).names, e ∈ t.names := by
    intro e he
    obtain ⟨he,hne⟩ := List.mem_filter.mp he
    rw [h.names] at he
    rcases List.mem_cons.mp he with rfl | he
    · simp at hne
    · exact (List.mem_filter.mp he).1
  have hnext : t.next < (t'.erase place).next := by
    change t.next < t'.next
    rw [h.next]
    exact Nat.lt_succ_self _
  refine ⟨Nat.zero_lt_of_lt hnext,fun e he => ?_,fun e he => ?_⟩
  · exact Nat.lt_trans (hw.number_lt e (hmem e he)) hnext
  · rw [isDirectoryAt,h.get?_erase hw hfree]
    exact hw.parent e (hmem e he)

/-- Paths lead where they led before the file was there. -/
theorem keeps_back : Keeps t' t := by
  intro q
  have hget := h.get? hw (ne_nil_of_get? hfree) q
  by_cases hq : q = place
  · subst hq
    rw [if_pos rfl] at hget
    exact .inr ⟨by simp [isDirectoryAt,hget,Node.isDirectory],by simp [isLinkAt,hget],
      isLinkAt_of_free hfree⟩
  · exact .inl (by rw [hget,if_neg hq])

/-- Nothing is below the file, so that under another name it is as a new file there. -/
theorem move {target : Place} (hne : target ≠ place) :
    Planted (t.erase place) target (.file mode block) (t'.move place target) := by
  refine ⟨?_,h.node,h.next⟩
  -- every other name stays: one below the file would make a directory of its free place
  have hstay : ∀ e ∈ ((t.erase place).erase target).names,
      (if place.isPrefixOf e.1 then target ++ e.1.drop place.length else e.1,e.2) = e := by
    intro e he
    obtain ⟨he,-⟩ := List.mem_filter.mp he
    obtain ⟨hm,hep⟩ := List.mem_filter.mp he
    rw [if_neg]
    intro hpre
    obtain ⟨below,hbelow⟩ := List.isPrefixOf_iff_prefix.mp hpre
    have hnil : below ≠ [] := by
      rintro rfl
      simp [← hbelow] at hep
    have hdir : t.isDirectoryAt place = true :=
      hw.isDirectoryAt_of_below hnil (by rw [hbelow]; exact hm)
    simp [isDirectoryAt,hfree] at hdir
  change ((t'.names.filter (·.1 ≠ target)).map fun e =>
    (if place.isPrefixOf e.1 then target ++ e.1.drop place.length else e.1,e.2)) =
      (target,t.next) :: ((t.erase place).erase target).names
  rw [h.names]
  change (((place,t.next) :: (t.erase place).names).filter (·.1 ≠ target)).map _ = _
  rw [List.filter_cons_of_pos (by simpa using Ne.symm hne),List.map_cons]
  congr 1
  · simp
  · exact (List.map_congr_left hstay).trans (List.map_id _)

/-- The file under its last name. -/
theorem rename (htemp : t.locate here false temporary = .ok place)
    (hslash : hasTrailingSlash temporary = false) {p : Path} {last : FileTree}
    (hr : t'.rename here temporary p = .ok last) :
    ∃ target, t.locate here false p = .ok target ∧ hasTrailingSlash p = false ∧
      t.isDirectoryAt target = false ∧
      Planted (t.erase place) target (.file mode block) last := by
  have hp := ne_nil_of_get? hfree
  have hno := isDirectoryAt_of_free hfree
  have hfind := h.find hw hno (isLinkAt_of_free hfree) htemp hslash false
  obtain ⟨target,htarget,hpslash,hlast⟩ := rename_file_ok hfind rfl hr
  refine ⟨target,(h.keeps_back hw hfree).locate htarget,hpslash,?_⟩
  -- a file that is there already keeps its name; its number is new, so no other place has it
  by_cases heq : target = place
  · subst heq
    rcases hlast with ⟨-,rfl⟩ | ⟨hnot,-⟩
    · refine ⟨hno,?_,h.node,h.next⟩
      rw [h.names]
      simp [tie,erase]
    · simp [h.get? hw hp,h.numberAt? hp] at hnot
  · rcases hlast with ⟨hnumber,-⟩ | ⟨-,hdir,rfl⟩
    · rw [h.numberAt? hp,if_neg heq] at hnumber
      exact absurd (hw.numberAt?_lt hnumber) (Nat.lt_irrefl _)
    · refine ⟨?_,h.move hw hfree heq⟩
      rwa [isDirectoryAt,h.get? hw hp,if_neg heq] at hdir

end Planted

theorem locateFree_ok {here : Place} {p : Path} (h : t.locateFree here p = .ok place) :
    t.locate here false p = .ok place ∧ t.get? place = none := by
  obtain ⟨found,hfound,h⟩ := bind_eq_ok.mp h
  split at h
  · cases h
  · rename_i hfree
    cases h
    exact ⟨hfound,by simpa using hfree⟩

theorem create_ok {here : Place} {p : Path} {node : Node} {t' : FileTree}
    (h : t.create here p node = .ok t') : hasTrailingSlash p = false ∧ ∃ place,
      t.locate here false p = .ok place ∧ t.get? place = none ∧ t' = t.insert place node := by
  unfold create at h
  split at h
  · cases h
  · rename_i hslash
    obtain ⟨place,hplace,h⟩ := bind_eq_ok.mp h
    cases h
    exact ⟨by simpa using hslash,place,(locateFree_ok hplace).1,(locateFree_ok hplace).2,rfl⟩

section
variable {t' : FileTree} {here : Place} {p : Path} {number mode : Nat} {block : ByteArray}

theorem modifyFile_of_find (h : t.find here true p = .ok (place,number,.file mode block))
    (change : ByteArray → ByteArray) :
    t.modifyFile here p change = .ok (t.setNode number (.file mode (change block))) :=
  bind_eq_ok.mpr ⟨_,h,rfl⟩

theorem setMode_of_find (h : t.find here true p = .ok (place,number,.file mode block))
    (hn : number ≠ 0) (mode' : Nat) :
    t.setMode here p mode' = .ok (t.setNode number (.file mode' block)) := by
  refine bind_eq_ok.mpr ⟨_,h,?_⟩
  simp [hn]
  rfl

end

/-! ## Directories on the way to a path -/

/-- A tree grows by directories that paths above a path name. -/
def Grown (here : Place) (p : Path) (t t' : FileTree) : Prop :=
  ∀ q, t'.get? q = t.get? q ∨
    t.get? q = none ∧ t'.get? q = some (.directory Host.directoryMode) ∧
      ∃ n, t'.locate here true (Path.parent^[n] p) = .ok q

namespace Grown
variable {here : Place} {p : Path} {t' t'' : FileTree}

theorem refl (here : Place) (p : Path) (t : FileTree) : Grown here p t t := fun _ => .inl rfl

theorem keeps (h : Grown here p t t') : Keeps t t' := by
  intro q
  rcases h q with heq | ⟨hfree,hdir,-⟩
  · exact .inl heq
  · exact .inr ⟨isDirectoryAt_of_free hfree,isLinkAt_of_free hfree,by simp [isLinkAt,hdir]⟩

theorem trans (h : Grown here p t t') (h' : Grown here p t' t'') : Grown here p t t'' := by
  intro q
  rcases h' q with heq' | ⟨hfree',hdir',hway'⟩
  · rcases h q with heq | ⟨hfree,hdir,n,hway⟩
    · exact .inl (heq'.trans heq)
    · exact .inr ⟨hfree,heq'.trans hdir,n,h'.keeps.locate hway⟩
  · rcases h q with heq | ⟨hfree,hdir,-⟩
    · exact .inr ⟨heq ▸ hfree',hdir',hway'⟩
    · simp [hdir] at hfree'

theorem of_parent (h : Grown here (Path.parent p) t t') : Grown here p t t' := by
  intro q
  rcases h q with heq | ⟨hfree,hdir,n,hway⟩
  · exact .inl heq
  · exact .inr ⟨hfree,hdir,n + 1,hway⟩

end Grown

/-- A directory that is made is a step on the way to its path. -/
theorem makeDirectory_ok (hw : t.WellFormed) {here : Place} {p : Path} {t' : FileTree}
    (h : t.makeDirectory here p Host.directoryMode = .ok t') :
    Grown here p t t' ∧ t'.WellFormed := by
  obtain ⟨place,hplace,h⟩ := bind_eq_ok.mp h
  obtain ⟨hlocate,hfree⟩ := locateFree_ok hplace
  cases h
  have hnew := Planted.insert hw place (.directory Host.directoryMode)
  have hno := isDirectoryAt_of_free hfree
  have hget := hnew.get? hw (ne_nil_of_get? hfree)
  refine ⟨fun q => ?_,hnew.wellFormed hw hno (isDirectoryAt_of_locate hw hlocate)⟩
  by_cases hq : q = place
  · subst hq
    have hkeep := hnew.keeps hw hno (isLinkAt_of_free hfree) fun target => by simp
    have hthere := hget q
    rw [if_pos rfl] at hthere
    exact .inr ⟨hfree,hthere,0,
      locate_follow (hkeep.locate hlocate) (by simp [isLinkAt,hthere]) true⟩
  · exact .inl (by rw [hget,if_neg hq])

end Model.FileTree
end TeenyTiny

import TeenyTiny.Proofs.Seam

/-! Programs that are put together. Their tokens spell the two blocks one behind the other, blank
lines at the seam belong to the first one, and what the names of the second block need is found in
the second block already. So the whole is accepted, and its statements are those of the parts. -/
namespace TeenyTiny
open Text Piece Ast

section EraseDups
variable {α : Type} [BEq α] [LawfulBEq α]

theorem eraseDups_filter (p : α → Bool) (ns : List α) :
    (ns.filter p).eraseDups = ns.eraseDups.filter p := by
  induction ns using List.reverseRecOn with
  | nil => rfl
  | append_singleton ns n ih =>
    rw [List.filter_append,List.filter_singleton]
    by_cases hn : n ∈ ns
    · rw [eraseDups_concat_of_mem hn,← ih]
      cases hp : p n with
      | true => exact eraseDups_concat_of_mem (by simp [hn,hp])
      | false => rw [Bool.cond_false,List.append_nil]
    · rw [eraseDups_concat_of_not_mem hn,List.filter_append,← ih,List.filter_singleton]
      cases hp : p n with
      | true => exact eraseDups_concat_of_not_mem (by simp [hn])
      | false => rw [Bool.cond_false,List.append_nil,List.append_nil]

/-- Of the second list only what is new is kept. -/
theorem eraseDups_append_filter (ms ns : List α) :
    (ms ++ ns).eraseDups = ms.eraseDups ++ ns.eraseDups.filter (· ∉ ms.eraseDups) := by
  have hr : ns.removeAll ms = ns.filter (· ∉ ms.eraseDups) := by
    simp [List.removeAll]
  rw [List.eraseDups_append,hr,eraseDups_filter]

end EraseDups

/-- Names that are used rightly in two programs are so in the two together, unless a label would be
declared twice. -/
theorem WellNamed.append {es fs : List Event} (h : WellNamed es) (h' : WellNamed fs)
    (hd : List.Disjoint (labelled es) (labelled fs)) : WellNamed (es ++ fs) := by
  refine ⟨fun n hn => ?_,fun n hn => ?_,?_,fun before n after hs => ?_,fun n hn => ?_⟩
  · have hn : (.label n ∈ es ∨ .jump n ∈ es) ∨ .label n ∈ fs ∨ .jump n ∈ fs := by
      simp only [List.mem_append] at hn
      tauto
    exact hn.elim (h.labels_allowed n) (h'.labels_allowed n)
  · exact (List.mem_append.mp hn).elim (h.variables_allowed n) (h'.variables_allowed n)
  · rw [labelled_append]
    refine List.nodup_append.mpr ⟨h.labels_once,h'.labels_once,?_⟩
    rintro m hm _ hm' rfl
    exact hd hm hm'
  · -- the use stands in the first program, or in the second one behind the first
    rcases List.append_eq_append_iff.mp hs with ⟨earlier,rfl,hf⟩ | ⟨later,he,hf⟩
    · exact List.mem_append_right es (h'.uses_assigned earlier n after hf)
    · cases later with
      | nil => cases h'.uses_assigned [] n after hf.symm
      | cons e later =>
        obtain ⟨rfl,-⟩ := List.cons_eq_cons.mp hf
        exact h.uses_assigned before n later he
  · exact List.mem_append.mpr ((List.mem_append.mp hn).imp (h.jumps_labelled n)
      (h'.jumps_labelled n))

namespace Ast

theorem Block.pieces_append (b c : Block) :
    Block.pieces (b ++ c) = Block.pieces b ++ Block.pieces c := by
  induction b with
  | nil => rfl
  | cons s b ih => rw [List.cons_append,Block.pieces,Block.pieces,ih,List.append_assoc]

theorem Block.code_append (b c : Block) : Block.code (b ++ c) = Block.code b ++ Block.code c := by
  induction b with
  | nil => rfl
  | cons s b ih => rw [List.cons_append,Block.code,Block.code,ih,List.append_assoc]

theorem Block.pieces_last {b : Block} (h : b ≠ []) : ∃ ps, Block.pieces b = ps ++ [.newline] := by
  obtain ⟨b,s,rfl⟩ := List.eq_nil_or_concat b |>.resolve_left h
  obtain ⟨ps,hs⟩ := s.pieces_last
  rw [List.concat_eq_append,Block.pieces_append,Block.pieces,hs,Block.pieces,List.append_nil]
  exact ⟨Block.pieces b ++ ps,(List.append_assoc _ _ _).symm⟩

end Ast

/-- Line feeds behind a block are taken for repeated ones. -/
theorem Piece.Spread.append_feeds {ps qs : List Piece} (h : Spread (ps ++ [newline]) qs)
    (n : Nat) : Spread (ps ++ [newline]) (qs ++ List.replicate n newline) := by
  obtain ⟨rs,feeds,rfl,hr,hf⟩ := append_iff.mp h
  obtain ⟨m,rfl⟩ := newline_iff.mp hf
  rw [List.append_assoc,List.replicate_append_replicate]
  exact hr.append (newline_iff.mpr ⟨m + n,by rw [Nat.add_right_comm]⟩)

theorem Spells.append {us vs : List Token} {b c : Block} (h : Spells us b) (h' : Spells vs c) :
    Spells (us ++ vs) (b ++ c) := by
  obtain ⟨n,qs,hu,hb⟩ := h
  obtain ⟨m,rs,hv,hc⟩ := h'
  by_cases he : b = []
  · subst he
    obtain rfl := Spread.nil_iff.mp hb
    refine ⟨n + m,rs,?_,hc⟩
    rw [List.map_append,hu,hv,List.append_nil,← List.append_assoc,
      List.replicate_append_replicate]
  · obtain ⟨ps,hps⟩ := Block.pieces_last he
    rw [hps] at hb
    refine ⟨n,(qs ++ List.replicate m newline) ++ rs,?_,?_⟩
    · rw [List.map_append,hu,hv]
      simp only [List.append_assoc]
    · rw [Block.pieces_append,hps]
      exact (hb.append_feeds m).append hc

theorem Spells.of_pieces {us vs : List Token} {b : Block} (h : Spells us b)
    (hp : vs.map Token.piece = us.map Token.piece) : Spells vs b := by
  rwa [Spells,hp]

/-- The tokens of two sources one behind the other; the lines of the second are counted on. -/
theorem exists_tokens_append {s₁ s₂ : Bytes} {us vs : List Token}
    (hs : s₁ = [] ∨ s₁.getLast? = some 10) (hm : ¬ mark <+: s₂)
    (h₁ : (streamOf s₁).items = us.map .ok) (h₂ : (streamOf s₂).items = vs.map .ok) :
    ∃ ws, (streamOf (s₁ ++ s₂)).items = (us ++ ws).map .ok ∧
      ws.map Token.piece = vs.map Token.piece := by
  rcases hs with rfl | hs
  · obtain rfl : us = [] := List.map_eq_nil_iff.mp h₁.symm
    exact ⟨vs,h₂,rfl⟩
  · obtain ⟨items,last,hl,happ⟩ := items_append hs s₂
    have hl₂ := TokenStream.lexes_ofChars (endsLine_preprocess s₂)
    change Lexes _ (streamOf s₂).items _ at hl₂
    rw [h₂] at hl₂
    obtain ⟨ws,rfl,hw⟩ := hl₂.pieces hl (by rw [preprocess_eq,unmarked_eq_self hm])
    exact ⟨ws,by rw [happ,h₁,List.map_append],hw⟩

/-- The text of a program with these variables and statements. -/
def programText (vars : List Bytes) (body : Bytes) : Bytes :=
  encode prologue ++ vars.flatMap Generator.declarationLine ++ body ++ encode epilogue

theorem translation_eq_programText {s : Symbols} {b : Block}
    (h : s.Records (events (Block.pieces b))) :
    encode b.translation = programText s.names (encode (Block.code b)) := by
  rw [← Block.translation_bytes,h.names,programText,encode_append,List.append_assoc _ _ (encode _)]

/-- Programs that declare no label in common are compiled together to the statements of the one and
then those of the other. -/
theorem compileText_append {s₁ s₂ text₁ text₂ : Bytes} (hs : s₁ = [] ∨ s₁.getLast? = some 10)
    (hm : ¬ mark <+: s₂) (h₁ : (compileText s₁).2 = .ok text₁)
    (h₂ : (compileText s₂).2 = .ok text₂)
    (hd : List.Disjoint ((compileText s₁).1.labels.map LabelLine.name)
      ((compileText s₂).1.labels.map LabelLine.name)) :
    let vars₁ := (compileText s₁).1.names
    let vars₂ := (compileText s₂).1.names
    let vars := vars₁ ++ vars₂.filter (· ∉ vars₁)
    (compileText (s₁ ++ s₂)).1.names = vars ∧ ∃ body₁ body₂,
      text₁ = programText vars₁ body₁ ∧ text₂ = programText vars₂ body₂ ∧
        (compileText (s₁ ++ s₂)).2 = .ok (programText vars (body₁ ++ body₂)) := by
  intro vars₁ vars₂ vars
  obtain ⟨us,b,hu,hb,hn₁,hr₁,rfl⟩ := compileText_sound h₁
  obtain ⟨vs,c,hv,hc,hn₂,hr₂,rfl⟩ := compileText_sound h₂
  obtain ⟨ws,hi,hw⟩ := exists_tokens_append hs hm hu hv
  rw [hr₁.labels,hr₂.labels] at hd
  have he : events (Block.pieces (b ++ c)) =
      events (Block.pieces b) ++ events (Block.pieces c) := by
    rw [Block.pieces_append]
    exact Block.settled b _
  have hn : WellNamed (events (Block.pieces (b ++ c))) := by
    rw [he]
    exact hn₁.append hn₂ hd
  obtain ⟨hr,htext⟩ := compileText_complete hi (hb.append (hc.of_pieces hw)) hn
  have hvars : (compileText (s₁ ++ s₂)).1.names = vars := by
    rw [hr.names,he,assigned_append,eraseDups_append_filter,← hr₁.names,← hr₂.names]
  refine ⟨hvars,_,_,translation_eq_programText hr₁,translation_eq_programText hr₂,?_⟩
  rw [htext,translation_eq_programText hr,hvars,Block.code_append,encode_append]

/-- Blank lines on both sides of the seam, and a variable that both programs assign. -/
theorem append_of_labels :
    let s₁ : Bytes := "LET a = 1\nLABEL x\n\n"
    let s₂ : Bytes := "\nLET b = 2\nLET a = b\nGOTO y\nLABEL y"
    let text₁ := programText ["a"] "a = 1;\nx:\n"
    let text₂ := programText ["b","a"] "b = 2;\na = b;\ngoto y;\ny:\n"
    let vars₁ := (compileText s₁).1.names
    let vars₂ := (compileText s₂).1.names
    let vars := vars₁ ++ vars₂.filter (· ∉ vars₁)
    (s₁ = [] ∨ s₁.getLast? = some 10) ∧ ¬ mark <+: s₂ ∧ (compileText s₁).2 = .ok text₁ ∧
      (compileText s₂).2 = .ok text₂ ∧
      List.Disjoint ((compileText s₁).1.labels.map LabelLine.name)
        ((compileText s₂).1.labels.map LabelLine.name) ∧
      (compileText (s₁ ++ s₂)).1.names = vars ∧ ∃ body₁ body₂,
        text₁ = programText vars₁ body₁ ∧ text₂ = programText vars₂ body₂ ∧
          (compileText (s₁ ++ s₂)).2 = .ok (programText vars (body₁ ++ body₂)) := by
  intro s₁ s₂ text₁ text₂ vars₁ vars₂ vars
  have hs : s₁ = [] ∨ s₁.getLast? = some 10 := .inr (by decide +kernel)
  have hm : ¬ mark <+: s₂ := by decide +kernel
  have h₁ : (compileText s₁).2 = .ok text₁ := ok_of_toOption (by decide +kernel)
  have h₂ : (compileText s₂).2 = .ok text₂ := ok_of_toOption (by decide +kernel)
  have hd : List.Disjoint ((compileText s₁).1.labels.map LabelLine.name)
      ((compileText s₂).1.labels.map LabelLine.name) :=
    List.disjoint_left.mpr (by decide +kernel)
  exact ⟨hs,hm,h₁,h₂,hd,compileText_append hs hm h₁ h₂ hd⟩

end TeenyTiny

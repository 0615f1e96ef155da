import TeenyTiny.Proofs.Derivation
import TeenyTiny.Proofs.Programs

/-! The language of the compiler: the grammar on the kinds of tokens, and the rules on names. -/
namespace TeenyTiny
open Text Piece Ast Grammar

theorem Piece.Spread.eventsAfter_eq {ps qs : List Piece} (h : Spread ps qs) (role : Bytes → Event) :
    eventsAfter role qs = eventsAfter role ps := by
  induction h generalizing role with
  | nil => rfl
  | cons p _ ih => simp only [eventsAfter,ih]
  | again _ ih => exact ih .use

theorem events_replicate (n : Nat) (ps : List Piece) :
    events (List.replicate n newline ++ ps) = events ps := by
  induction n with
  | zero => rfl
  | succ n ih => rw [List.replicate_succ,List.cons_append,events_cons rfl (by simp),ih]

section Spells
variable {us : List Token} {last : Token} {b : Block}

theorem Spells.program (h : Spells us b) (hl : last.piece = eof) : ∃ n qs,
    (us ++ [last]).map Token.piece = List.replicate n newline ++ qs ∧ Spread b.program qs := by
  obtain ⟨n,qs,hq,hs⟩ := h
  refine ⟨n,qs ++ [eof],?_,hs.append (.refl [eof])⟩
  rw [List.map_append,hq,List.append_assoc,List.map_singleton,hl]

theorem spells_of_program {n : Nat} {qs : List Piece} (hl : last.piece = eof)
    (hq : (us ++ [last]).map Token.piece = List.replicate n newline ++ qs)
    (hs : Spread b.program qs) : Spells us b := by
  obtain ⟨rs,rs',rfl,hr,hr'⟩ := Spread.append_iff.mp hs
  obtain rfl := Spread.eq_of_ne_newline (by simp) hr'
  refine ⟨n,rs,?_,hr⟩
  rw [List.map_append,List.map_singleton,hl,← List.append_assoc] at hq
  exact List.append_cancel_right hq

/-- Blank lines and the end token do nothing to names. -/
theorem Spells.events_eq (h : Spells us b) (hl : last.piece = eof) :
    events ((us ++ [last]).map Token.piece) = events (Block.pieces b) := by
  obtain ⟨n,qs,hq,hs⟩ := h.program hl
  have he : events qs = events b.program := hs.eventsAfter_eq .use
  rw [hq,events_replicate,he,Block.program,b.settled,events_cons rfl (by simp)]
  exact List.append_nil _

end Spells

theorem endToken_piece (s : TokenStream) : s.endToken.piece = eof := rfl

/-- The tokens of a stream without faults are well-formed. -/
theorem wellFormed_of_items {src : Bytes} {us : List Token}
    (hi : (streamOf src).items = us.map .ok) :
    ∀ p ∈ (us ++ [(streamOf src).endToken]).map Token.piece, p.WellFormed := by
  intro p hp
  obtain ⟨t,ht,rfl⟩ := List.mem_map.mp hp
  rcases List.mem_append.mp ht with ht | ht
  · have hm : .ok t ∈ (streamOf src).items := hi ▸ List.mem_map_of_mem ht
    exact (TokenStream.proper_ofChars _ t hm).1
  · rw [List.mem_singleton.mp ht,endToken_piece]
    rfl

/-- A source is accepted exactly when it has no lexical fault, the kinds of its tokens derive
from the grammar of programs, and its names are used as they have to be. -/
theorem compileText_succeeds_iff (src : Bytes) : (∃ text, (compileText src).2 = .ok text) ↔
    ∃ tokens, (TokenStream.ofChars (decode (preprocess src))).upToFault = (tokens,none) ∧
      Derives (.rule .program) (tokens.map Token.kind) ∧
      WellNamed (events (tokens.map Token.piece)) := by
  have hkinds : ∀ ts : List Token, ts.map Token.kind = (ts.map Token.piece).map Piece.kind := by
    intro ts
    rw [List.map_map]
    rfl
  have hend := endToken_piece (streamOf src)
  constructor
  · rintro ⟨text,h⟩
    obtain ⟨us,b,hi,hs,hn,-⟩ := compileText_ok_iff.mp h
    refine ⟨_,TokenStream.upToFault_eq_none.mpr ⟨us,hi,rfl⟩,?_,?_⟩
    · obtain ⟨n,qs,hq,hr⟩ := hs.program hend
      rw [hkinds]
      exact (derives_program_iff (wellFormed_of_items hi)).mpr ⟨n,b,qs,hq,hr⟩
    · exact (hs.events_eq hend).symm ▸ hn
  · rintro ⟨tokens,ht,hd,hn⟩
    obtain ⟨us,hi,rfl⟩ := TokenStream.upToFault_eq_none.mp ht
    rw [hkinds] at hd
    obtain ⟨n,b,qs,hq,hr⟩ := (derives_program_iff (wellFormed_of_items hi)).mp hd
    have hs := spells_of_program hend hq hr
    exact ⟨_,compileText_ok_iff.mpr ⟨us,b,hi,hs,hs.events_eq hend ▸ hn,rfl⟩⟩

end TeenyTiny

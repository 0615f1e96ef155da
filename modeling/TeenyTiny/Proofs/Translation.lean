import TeenyTiny.Proofs.Acceptance
import TeenyTiny.Proofs.Unambiguous

/-! The text of a program is the translation of its syntax tree. -/
namespace TeenyTiny
open Text Piece Ast

/-- Without blank lines the tokens of a block are its pieces. -/
theorem Spells.squeeze_eq {us : List Token} {last : Token} {b : Block} (h : Spells us b)
    (hl : last.piece = eof) : squeeze ((us ++ [last]).map Token.piece) = b.program := by
  obtain ⟨n,qs,hq,hs⟩ := h.program hl
  rw [hq]
  exact b.squeeze_of_spread hs n

theorem Spells.wellFormed {src : Bytes} {us : List Token} {b : Block} (h : Spells us b)
    (hi : (streamOf src).items = us.map .ok) : ∀ p ∈ b.program, p.WellFormed := by
  intro p hp
  rw [← h.squeeze_eq (endToken_piece (streamOf src))] at hp
  exact wellFormed_of_items hi p ((squeezeAfter_sublist true _).subset hp)

/-- An accepted source is spelled, up to blank lines, by exactly one tree, and the text is the
translation of that tree. -/
theorem compileText_eq_translation {src text : Bytes} (h : (compileText src).2 = .ok text) :
    ∃ tokens, (TokenStream.ofChars (decode (preprocess src))).upToFault = (tokens,none) ∧
      ∃ P : Block, P.program = squeeze (tokens.map Token.piece) ∧
        (∀ Q : Block, Q.program = squeeze (tokens.map Token.piece) → Q = P) ∧
        text = encode P.translation := by
  obtain ⟨us,b,hi,hs,-,rfl⟩ := compileText_ok_iff.mp h
  have hp := hs.squeeze_eq (endToken_piece (streamOf src))
  refine ⟨_,TokenStream.upToFault_eq_none.mpr ⟨us,hi,rfl⟩,b,hp.symm,fun Q hQ => ?_,rfl⟩
  exact Block.program_inj (hQ.trans hp)

/-- A loop with a jump out of it, after a blank line. -/
theorem translation_of_loop :
    let src : Bytes := "\nLET a = 07\nWHILE a > 1 REPEAT\nGOTO out\nENDWHILE\n\nLABEL out"
    let text : Bytes := "#include <stdio.h>\nint main(void)\x7b\nfloat a;\na = 7;\n" ++
      "while(a>1)\x7b\ngoto out;\n\x7d\nout:\nreturn 0;\n\x7d\n"
    (compileText src).2 = .ok text ∧
      ∃ tokens, (TokenStream.ofChars (decode (preprocess src))).upToFault = (tokens,none) ∧
        ∃ P : Block, P.program = squeeze (tokens.map Token.piece) ∧
          (∀ Q : Block, Q.program = squeeze (tokens.map Token.piece) → Q = P) ∧
          text = encode P.translation := by
  intro src text
  have h : (compileText src).2 = .ok text := ok_of_toOption (by decide +kernel)
  exact ⟨h,compileText_eq_translation h⟩

end TeenyTiny

import TeenyTiny.Proofs.Lexing
import TeenyTiny.Proofs.Verdicts

/-! Faults of the lexer and faults of the generator. The generator has read one token more than the
one it judges, so a fault of the lexer may come before one of its own or behind it. A fault that is
found is the first one of the lexer, or it is about a token in front of that one. -/
namespace TeenyTiny
open Text Generator

namespace Generator
variable {stream : TokenStream} {g' : Generator} {fault : Fault}

/-- A fault of a program is the first one of the stream, or it is about a token in front of that
one, or a label is missing and the stream has no fault. -/
theorem program_blames (hp : TokenStream.Proper stream.items)
    (h : program { stream := stream } = .error fault g') :
    (∃ before, stream.upToFault = (before,some fault)) ∨
      (∃ t ∈ stream.upToFault.1, t.Blamed fault) ∨
      fault.cause.rule? = some .labelDeclared ∧ ∃ us, stream.upToFault = (us,none) := by
  rcases program_fails h with h | ⟨g,-,hr,hd⟩
  · exact .inl h
  -- the steps before the fault have passed tokens only
  obtain ⟨goal,goals,g₁,⟨passed,ahead,hr⟩,hf⟩ :=
    hd.fails (fun goals g => ∃ passed ahead, Reached stream passed ahead goals g) ⟨_,_,hr⟩ <| by
      rintro goal goals g more g' ⟨passed,ahead,hr⟩ hp
      rcases hr.step hp with ⟨rest,-,-,hr⟩ | ⟨-,-,hr⟩
      · exact ⟨_,_,hr⟩
      · exact ⟨_,_,hr⟩
  rcases hr.fails hf with hv | hv
  · by_cases hg : goal = .resolve
    · subst hg
      refine .inr (.inr ⟨labelDeclared_of_resolve hv,?_⟩)
      obtain rfl := hr.ahead_nil hp hr.stage.kind_eq_eof
      exact ⟨_,TokenStream.upToFault_eq_none.mpr ⟨passed,by simpa using hr.items,rfl⟩⟩
    · obtain ⟨more,hm⟩ := hr.tokens
      exact .inr (.inl ⟨g₁.current,by simp [hm],blamed_of_verdict hg hv⟩)
  · exact .inl hv

end Generator

theorem Cause.kind_ne_lexical {cause : Cause} {rule : NameRule} (h : cause.rule? = some rule) :
    cause.kind ≠ .lexical := by
  cases cause with
  | name => simp [Cause.kind]
  | _ => cases h

theorem Token.Blamed.kind_ne_lexical {t : Token} {fault : Fault} (h : t.Blamed fault) :
    fault.cause.kind ≠ .lexical := by
  cases h <;> simp [Cause.kind]

theorem Token.Blamed.rule?_ne {t : Token} {fault : Fault} (h : t.Blamed fault) :
    fault.cause.rule? ≠ some .labelDeclared := by
  cases h with
  | grammar => simp [Cause.rule?]
  | name _ h => exact h

theorem Token.Blamed.line_eq {t : Token} {fault : Fault} (h : t.Blamed fault) :
    fault.line = t.line := by
  cases h <;> rfl

/-- Where the lexer finds no fault the generator finds no lexical one; where it finds one the
program fails with it, or with another fault that is on no later line. -/
theorem compileText_lexical_fault (src : Bytes) :
    (∀ tokens, (TokenStream.ofChars (decode (preprocess src))).upToFault = (tokens,none) →
      ∀ d, (compileText src).2 = .error (.diagnostic d) → d.cause.kind ≠ .lexical) ∧
    ∀ tokens e, (TokenStream.ofChars (decode (preprocess src))).upToFault = (tokens,some e) →
      ∃ d, (compileText src).2 = .error (.diagnostic d) ∧
        (d.cause.kind = .lexical ∧ d = e.explain (decode (preprocess src)) ∨
          d.cause.kind ≠ .lexical ∧ d.line ≤ e.line ∧ d.cause.rule? ≠ some .labelDeclared) := by
  have hp : TokenStream.Proper (streamOf src).items := TokenStream.proper_ofChars _
  have hlex := TokenStream.lexes_ofChars (endsLine_preprocess src)
  constructor
  · intro tokens ht d hd
    obtain ⟨fault,g,h,rfl⟩ := compileText_error_iff.mp hd
    rcases program_blames hp h with ⟨_,hb⟩ | ⟨t,-,hb⟩ | ⟨hb,-⟩
    · rw [streamOf,ht] at hb
      cases hb
    · exact hb.kind_ne_lexical
    · exact Cause.kind_ne_lexical hb
  · intro tokens e ht
    obtain ⟨rest,hi⟩ := TokenStream.upToFault_eq_some.mp ht
    cases h : program { stream := streamOf src } with
    | ok u g =>
      obtain ⟨-,us,b,hu,-⟩ := program_sound hp h
      have hn := TokenStream.upToFault_eq_none.mpr ⟨us,hu,rfl⟩
      rw [streamOf,ht] at hn
      cases hn
    | error fault g =>
      refine ⟨_,compileText_error_iff.mpr ⟨fault,g,h,rfl⟩,?_⟩
      rcases program_blames hp h with ⟨_,hb⟩ | ⟨t,hm,hb⟩ | ⟨-,us,hb⟩
      · rw [streamOf,ht] at hb
        cases hb
        have hm : .error e ∈ (streamOf src).items := by simp [streamOf,hi]
        exact .inl ⟨hlex.lexical hm,rfl⟩
      · refine .inr ⟨hb.kind_ne_lexical,?_,hb.rule?_ne⟩
        have hs := hlex.sorted
        rw [hi,List.pairwise_append] at hs
        rw [streamOf,ht] at hm
        have hle := hs.2.2 (.ok t) (List.mem_map_of_mem hm) (.error e) (by simp)
        exact hb.line_eq.trans_le hle
      · rw [streamOf,ht] at hb
        cases hb

/-- A keyword is out of place in front of a line with a character that no token has. -/
theorem lexical_fault_behind_keyword :
    let src : Bytes := "PRINT THEN\nGOTO @"
    let tokens : List Token := [⟨.keyword .print,"PRINT".toList,1⟩,
      ⟨.keyword .then_,"THEN".toList,1⟩,⟨.newline,['\n'],1⟩,⟨.keyword .goto,"GOTO".toList,2⟩]
    let e : Fault := ⟨2,.lexical (.unexpectedChar '@')⟩
    (TokenStream.ofChars (decode (preprocess src))).upToFault = (tokens,some e) ∧
      ∃ d, (compileText src).2 = .error (.diagnostic d) ∧
        (d.cause.kind = .lexical ∧ d = e.explain (decode (preprocess src)) ∨
          d.cause.kind ≠ .lexical ∧ d.line ≤ e.line ∧ d.cause.rule? ≠ some .labelDeclared) := by
  intro src tokens e
  have h : (TokenStream.ofChars (decode (preprocess src))).upToFault = (tokens,some e) :=
    Prod.ext (by decide +kernel) (by decide +kernel)
  exact ⟨h,(compileText_lexical_fault src).2 tokens e h⟩

end TeenyTiny

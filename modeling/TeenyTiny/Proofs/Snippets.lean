import TeenyTiny.Proofs.Bookkeeping
import TeenyTiny.Proofs.LexicalFaults
import TeenyTiny.Proofs.Progress
import TeenyTiny.Proofs.SourceLines

/-! Lines of tokens and of diagnostics. The line of a token is counted by the line feeds in front of
it, and the token is spelled in that line; a diagnostic stands on a line of the source and shows it,
and the name that it is about is there to be seen. -/
namespace TeenyTiny
open Text Lexer

/-- A token that is read stands at the start of the characters, unless it is the end token. -/
theorem Lexer.takes_of_ne_eof {cs rest : List Char} {kind : Kind} {lexeme : List Char}
    (h : read cs = ⟨.ok (kind,lexeme),rest⟩) (hk : kind ≠ .eof) : Takes cs ⟨kind,lexeme⟩ rest := by
  refine takes_read h ?_ ?_
  · rintro rfl
    cases h
    exact hk rfl
  · rintro c hc rfl
    simp only [extensible,List.mem_cons,List.not_mem_nil,or_false] at hc
    rcases hc with rfl | rfl | rfl <;> cases h <;> exact hk rfl

namespace Cursor
variable {source : List Char} {cursor : Cursor} {t : Token}

theorem next_of_ok (ht : cursor.next.1 = .ok t) : cursor.next = (.ok t,cursor.next.2) :=
  Prod.ext ht rfl

theorem line_of_ok (ht : cursor.next.1 = .ok t) : t.line = cursor.line :=
  (next_ok (next_of_ok ht)).2.1

theorem Reached.line_bounds (h : Reached source cursor) :
    1 ≤ cursor.line ∧ cursor.line ≤ 1 + source.count '\n' := by
  have hc := h.line_add_count
  have hle := h.suffix.sublist.count_le '\n'
  omega

/-- The end token stands behind every line feed. -/
theorem Reached.line_eof (h : Reached source cursor) (ht : cursor.next.1 = .ok t)
    (hk : t.kind = .eof) : t.line = 1 + source.count '\n' := by
  obtain ⟨rfl,-,hn⟩ := next_eof ht hk
  have hc := h.line_add_count
  rw [List.count_eq_zero.mpr hn] at hc
  exact hc

/-- Any other token is found where the cursor goes on, behind as many line feeds as its line
says. -/
theorem Reached.exists_before (h : Reached source cursor) (ht : cursor.next.1 = .ok t)
    (hk : t.kind ≠ .eof) : ∃ before, source = before ++ (t.piece.spelling ++ cursor.next.2.rest) ∧
      t.line = 1 + before.count '\n' := by
  obtain ⟨hr,hl,-⟩ := next_ok (next_of_ok ht)
  obtain ⟨gap,hgap,-,-⟩ := exists_gap cursor.rest
  obtain ⟨passed,hs⟩ := h.suffix
  have hsplit : skipGap cursor.rest = t.piece.spelling ++ cursor.next.2.rest :=
    (takes_of_ne_eof hr hk).split
  refine ⟨passed ++ gap,?_,?_⟩
  · rw [List.append_assoc,← hsplit,← hgap,hs]
  · -- no line feed is in the gap
    have hc := h.line_add_count
    have hg := congrArg (List.count '\n') hgap
    rw [List.count_append,count_skipGap] at hg
    rw [← hs,List.count_append] at hc
    rw [hl,List.count_append]
    omega

/-- A token other than a line feed is found in the text of its line. -/
theorem Reached.infix_sourceLine (h : Reached source cursor) (ht : cursor.next.1 = .ok t)
    (hk : t.kind ≠ .eof) (hn : t.kind ≠ .newline) :
    encode t.piece.spelling <:+: sourceLine source t.line := by
  obtain ⟨before,hs,hl⟩ := h.exists_before ht hk
  have hw := wellFormed_next (next_of_ok ht)
  rw [hs,hl]
  exact (hw.visible hk hn).infix_sourceLine before cursor.next.2.rest

end Cursor

namespace TokenStream
variable {source : List Char} {t : Token}

/-- Pulling gives the items one by one, and then the end token. -/
theorem pull_of_getElem? {s : TokenStream} {n : Nat} {item : Except Fault Token}
    (h : (s.items ++ [.ok s.endToken])[n]? = some item) : (s.after n).pull.1 = item := by
  induction n generalizing s with
  | zero =>
    change s.pull.1 = item
    unfold pull
    cases hi : s.items with
    | nil =>
      rw [hi] at h
      exact Option.some.inj h
    | cons first rest =>
      rw [hi] at h
      exact Option.some.inj h
  | succ n ih =>
    cases hi : s.items with
    | nil =>
      rw [hi] at h
      cases h
    | cons first rest =>
      have hp : s.pull.2 = ⟨rest,s.endLine⟩ := by
        rw [pull,hi]
      rw [hi] at h
      rw [after_succ,hp]
      apply ih
      exact h

/-- Every item of a stream is the result of some call of the lexer, and so is the end token. -/
theorem exists_cursor {item : Except Fault Token}
    (h : item ∈ (ofChars source).items ++ [.ok (ofChars source).endToken]) :
    ∃ cursor, Cursor.Reached source cursor ∧ cursor.next.1 = item := by
  obtain ⟨n,hn⟩ := List.mem_iff_getElem?.mp h
  refine ⟨_,Cursor.reached_after source n,?_⟩
  rw [← pull_ofChars,pull_of_getElem? hn]

theorem exists_cursor_of_token (h : t ∈ (ofChars source).upToFault.1) :
    ∃ cursor, Cursor.Reached source cursor ∧ cursor.next.1 = .ok t := by
  apply exists_cursor
  rcases hu : (ofChars source).upToFault with ⟨ts,_ | fault⟩
  · obtain ⟨us,hi,rfl⟩ := upToFault_eq_none.mp hu
    rw [hu] at h
    simpa [hi] using h
  · obtain ⟨rest,hi⟩ := upToFault_eq_some.mp hu
    rw [hu] at h
    have hm : .ok t ∈ ts.map (Except.ok : Token → Except Fault Token) := List.mem_map_of_mem h
    simp [hi,hm]

end TokenStream

/-- The name that a fault is about. -/
def NameCause.subject : NameCause → Bytes
  | duplicateLabel name _ | undeclaredLabel name | undeclaredVariable name
  | reservedName name => name

theorem NameCause.quoted_subject (cause : NameCause) :
    quoted cause.subject <:+: cause.message := by
  cases cause with
  | duplicateLabel name line =>
    refine ⟨"label already exists: "," (first declared on line " ++ decimal line ++ ")",?_⟩
    simp only [message,subject,List.append_assoc]
  | undeclaredLabel | undeclaredVariable | reservedName => exact (List.suffix_append _ _).isInfix

/-- The fault is on the line of a name that it is about. -/
theorem Misnamed.exists_token {tokens : List Token} {fault : Fault} (h : Misnamed tokens fault) :
    ∃ t ∈ tokens, ∃ cause, t.kind = .ident ∧ fault = ⟨t.line,.name cause⟩ ∧
      cause.subject = t.text := by
  cases h with
  | reserved ht hk => exact ⟨_,by simp [ht],_,hk,rfl,rfl⟩
  | undefined ht hk => exact ⟨_,by simp [ht],_,hk,rfl,rfl⟩
  | redeclared ht hk => exact ⟨_,by simp [ht],_,hk,rfl,rfl⟩
  | unlabelled _ hf =>
    have hm := List.mem_of_find?_eq_some hf
    rw [referenced_calls] at hm
    obtain ⟨p,hp,rfl⟩ := List.mem_map.mp hm
    obtain ⟨-,ht,-,hk⟩ := mem_of_named hp
    exact ⟨p.2,ht,_,hk,rfl,rfl⟩

/-- The rule that is broken is told exactly for the faults that are semantic. -/
theorem Cause.isSome_rule? (cause : Cause) :
    cause.rule?.isSome = true ↔ cause.kind = .semantic := by
  rcases cause with _ | _ | ⟨_ | _ | _ | _⟩ <;> simp [rule?,kind]

theorem misnamed_of_semantic {src : Bytes} {fault : Fault} {g : Generator}
    (h : Generator.program { stream := streamOf src } = .error fault g)
    (hk : fault.cause.kind = .semantic) : Misnamed (streamOf src).upToFault.1 fault := by
  apply Generator.program_misnamed (TokenStream.proper_ofChars _) h hk
  intro e he
  exact (TokenStream.lexes_ofChars (endsLine_preprocess src)).lexical he

/-- What is wrong with a program is found by some call of the lexer, or at the token of one; a name
is at fault at its own token. -/
theorem exists_cursor_of_fault {src : Bytes} {fault : Fault} {g : Generator}
    (h : Generator.program { stream := streamOf src } = .error fault g) :
    ∃ cursor, Cursor.Reached (decode (preprocess src)) cursor ∧ fault.line = cursor.line ∧
      (fault.cause.kind = .semantic → ∃ t cause, cursor.next.1 = .ok t ∧ t.kind = .ident ∧
        fault.cause = .name cause ∧ cause.subject = t.text) := by
  by_cases hk : fault.cause.kind = .semantic
  · obtain ⟨t,ht,cause,hi,rfl,hs⟩ := (misnamed_of_semantic h hk).exists_token
    obtain ⟨cursor,hc,hn⟩ := TokenStream.exists_cursor_of_token ht
    exact ⟨cursor,hc,congrArg Nat.cast (Cursor.line_of_ok hn),fun _ => ⟨t,cause,hn,hi,rfl,hs⟩⟩
  · have hp : TokenStream.Proper (streamOf src).items := TokenStream.proper_ofChars _
    rcases Generator.program_blames hp h with ⟨before,hu⟩ | ⟨t,ht,hb⟩ | ⟨hr,-⟩
    · obtain ⟨rest,hi⟩ := TokenStream.upToFault_eq_some.mp hu
      have hm : .error fault ∈ (streamOf src).items := by simp [hi]
      obtain ⟨cursor,hc,hn⟩ := TokenStream.exists_cursor (List.mem_append_left _ hm)
      refine ⟨cursor,hc,?_,fun h => absurd h hk⟩
      rw [← cursor.itemLine_next,hn]
      rfl
    · obtain ⟨cursor,hc,hn⟩ := TokenStream.exists_cursor_of_token ht
      refine ⟨cursor,hc,?_,fun h => absurd h hk⟩
      rw [hb.line_eq,Cursor.line_of_ok hn]
    · have hsome : fault.cause.rule?.isSome = true := by rw [hr,Option.isSome_some]
      exact absurd ((Cause.isSome_rule? _).mp hsome) hk

/-- The line that a diagnostic shows. -/
theorem exists_line_of_bounds {b : Bytes} {line : Nat} (h₁ : 1 ≤ line)
    (h₂ : line ≤ 1 + (decode b).count '\n') :
    line ≤ (splitOn 10 b).length ∧ ∃ l, (splitOn 10 b)[line - 1]? = some l ∧
      sourceLine (decode b) line = encode (trimChars (decode l)) := by
  have hlen := length_splitOn '\n' (decode b)
  rw [splitOn_decode,List.length_map] at hlen
  have hlt : line - 1 < (splitOn 10 b).length := by omega
  refine ⟨by omega,_,List.getElem?_eq_getElem hlt,?_⟩
  have hl : (splitOn '\n' (decode b))[line - 1]? = some (decode (splitOn 10 b)[line - 1]) := by
    rw [splitOn_decode,List.getElem?_map,List.getElem?_eq_getElem hlt]
    rfl
  rw [← sourceLine_of_getElem? hl,Nat.add_sub_of_le h₁]

/-- Tokens and diagnostics have the lines that they stand on: a token is spelled in the text of its
line, and a diagnostic shows that text, with the name that it quotes. -/
theorem source_lines_exact :
    (∀ (source : List Char) (cursor : Cursor) (t : Token), Cursor.Reached source cursor →
      cursor.next.1 = .ok t →
      (t.kind = .eof → t.line = 1 + source.count '\n') ∧
      (t.kind ≠ .eof → ∃ before, source = before ++ (t.piece.spelling ++ cursor.next.2.rest) ∧
        t.line = 1 + before.count '\n') ∧
      (t.kind ≠ .eof → t.kind ≠ .newline →
        encode t.piece.spelling <:+: sourceLine source t.line)) ∧
    ∀ (src : Bytes) (d : Diagnostic), (compileText src).2 = .error (.diagnostic d) →
      1 ≤ d.line ∧ d.line ≤ (splitOn 10 (preprocess src)).length ∧
      (∃ l text, (splitOn 10 (preprocess src))[d.line.toNat - 1]? = some l ∧
        Trimmed isBlank (decode l) text ∧ d.snippet = encode text) ∧
      (d.cause.rule?.isSome = true ↔ d.cause.kind = .semantic) ∧
      (d.cause.kind = .semantic → ∃ cause, d.cause = .name cause ∧
        quoted cause.subject <:+: d.cause.message ∧ cause.subject <:+: d.snippet) := by
  constructor
  · intro source cursor t h ht
    exact ⟨h.line_eof ht,h.exists_before ht,h.infix_sourceLine ht⟩
  · intro src d hd
    obtain ⟨fault,g,hg,rfl⟩ := compileText_error_iff.mp hd
    obtain ⟨cursor,hc,hl,hname⟩ := exists_cursor_of_fault hg
    obtain ⟨h₁,h₂⟩ := hc.line_bounds
    obtain ⟨hlen,l,hget,hs⟩ := exists_line_of_bounds h₁ h₂
    obtain ⟨line,cause⟩ := fault
    obtain rfl : line = cursor.line := hl
    refine ⟨Int.ofNat_le.mpr h₁,Int.ofNat_le.mpr hlen,?_,Cause.isSome_rule? cause,?_⟩
    · exact ⟨l,_,hget,trimmed_trimBoth isBlank (decode l),hs⟩
    · intro hk
      obtain ⟨t,name,ht,hi,hcause,hsubject⟩ := hname hk
      -- the diagnostic is on the line of the token, and an identifier is spelled as it is named
      have hin := hc.infix_sourceLine ht (by simp [hi]) (by simp [hi])
      have hspelling : t.piece.spelling = t.lexeme := if_neg (by simp [Token.piece,hi])
      rw [hspelling,Cursor.line_of_ok ht] at hin
      refine ⟨name,hcause,?_,?_⟩
      · change _ <:+: cause.message
        rw [show cause = .name name from hcause]
        exact name.quoted_subject
      · rw [hsubject]
        exact hin

/-- A string behind a comment and a blank line, and a jump out of a block to no label. -/
theorem source_lines_of_jump :
    let source := "LABEL x # y\n\n\tPRINT \"a # b\"\r\n".toList
    let cursor := (Cursor.start source).after 5
    let t : Token := ⟨.string,"a # b".toList,3⟩
    let src : Bytes := "LET a = 1\n  IF a < 2 THEN\n\t GOTO b # c\nENDIF"
    let d : Diagnostic := ⟨⟨3,.name (.undeclaredLabel "b")⟩,"GOTO b # c"⟩
    Cursor.Reached source cursor ∧ cursor.next.1 = .ok t ∧
      (∃ before, source = before ++ (t.piece.spelling ++ cursor.next.2.rest) ∧
        t.line = 1 + before.count '\n') ∧
      encode t.piece.spelling <:+: sourceLine source t.line ∧
      (compileText src).2 = .error (.diagnostic d) ∧
      d.line ≤ (splitOn 10 (preprocess src)).length ∧
      (∃ l text, (splitOn 10 (preprocess src))[d.line.toNat - 1]? = some l ∧
        Trimmed isBlank (decode l) text ∧ d.snippet = encode text) ∧
      ∃ cause, d.cause = .name cause ∧ quoted cause.subject <:+: d.cause.message ∧
        cause.subject <:+: d.snippet := by
  intro source cursor t src d
  have hr : Cursor.Reached source cursor := Cursor.reached_after source 5
  have ht : cursor.next.1 = .ok t := by decide +kernel
  have hd : (compileText src).2 = .error (.diagnostic d) := error_of_diagnostic? (by decide +kernel)
  obtain ⟨-,hb,hi⟩ := source_lines_exact.1 source cursor t hr ht
  obtain ⟨-,hl,hs,-,hn⟩ := source_lines_exact.2 src d hd
  exact ⟨hr,ht,hb (by decide),hi (by decide) (by decide),hd,hl,hs,hn rfl⟩

end TeenyTiny

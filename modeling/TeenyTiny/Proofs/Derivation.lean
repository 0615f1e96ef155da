import TeenyTiny.Proofs.Grammar

/-! Syntax trees are the derivations of the grammar: the kinds of the pieces that a tree spells can
be derived, in every layout, and well-formed pieces whose kinds can be derived are spelled by a
tree. -/
namespace TeenyTiny
namespace Grammar
open Ast Piece

/-- The pieces that trees spell. -/
def phrases : Rule → Language Piece
  | .program => {ps | ∃ n b qs, ps = List.replicate n newline ++ qs ∧ Spread (Block.program b) qs}
  | .statement => {ps | ∃ s : Statement, Spread s.pieces ps}
  | .comparison => {ps | ∃ c : Condition, ps = c.pieces}
  | .expression => {ps | ∃ e : Expression, ps = e.pieces}
  | .term => {ps | ∃ t : Term, ps = t.pieces}
  | .unary => {ps | ∃ u : Unary, ps = u.pieces}
  | .primary => {ps | ∃ p : Primary, ps = [p.piece]}
  | .lineEnd => {ps | Spread [newline] ps}

section Language
variable {ps : List Piece}

theorem mem_seq {a b : Form} : ps ∈ (a * b).language phrases ↔
    ∃ qs ∈ a.language phrases, ∃ rs ∈ b.language phrases, qs ++ rs = ps := Language.mem_mul

theorem mem_alt {a b : Form} : ps ∈ (a + b).language phrases ↔
    ps ∈ a.language phrases ∨ ps ∈ b.language phrases := Iff.rfl

theorem mem_many {a : Form} : ps ∈ (Form.many a).language phrases ↔
    ∃ parts : List (List Piece), ps = parts.flatten ∧ ∀ part ∈ parts, part ∈ a.language phrases :=
  Iff.rfl

theorem eq_of_mem_token {k : Kind} {cs : List Char} (hk : k.spelling? = some cs)
    (h : ps ∈ (Form.token k).language phrases) : ps = [⟨k,cs⟩] := by
  obtain ⟨p,rfl,rfl,hp⟩ := h
  rw [← hp.eq_of_spelling hk]

theorem eq_of_mem_word {k : Keyword} (h : ps ∈ (word k).language phrases) :
    ps = [Piece.keyword k] := eq_of_mem_token rfl h

theorem exists_of_mem_ident (h : ps ∈ (Form.token .ident).language phrases) :
    ∃ name, ps = [Piece.ident name] := by
  obtain ⟨⟨kind,name⟩,rfl,rfl,-⟩ := h
  exact ⟨name,rfl⟩

theorem exists_of_mem_sign (h : ps ∈ (Form.token .plus + .token .minus).language phrases) :
    ∃ sign : Sign, ps = [sign.piece] := by
  rcases mem_alt.mp h with h | h
  · exact ⟨.plus,eq_of_mem_token rfl h⟩
  · exact ⟨.minus,eq_of_mem_token rfl h⟩

theorem exists_of_mem_scaling (h : ps ∈ (Form.token .times + .token .slash).language phrases) :
    ∃ scaling : Scaling, ps = [scaling.piece] := by
  rcases mem_alt.mp h with h | h
  · exact ⟨.times,eq_of_mem_token rfl h⟩
  · exact ⟨.slash,eq_of_mem_token rfl h⟩

theorem exists_of_mem_comparison (h : ps ∈ comparisonOperator.language phrases) :
    ∃ op : Comparison, ps = [Piece.comparison op] := by
  rcases h with ((((h | h) | h) | h) | h) | h
  · exact ⟨.eq,eq_of_mem_token rfl h⟩
  · exact ⟨.ne,eq_of_mem_token rfl h⟩
  · exact ⟨.lt,eq_of_mem_token rfl h⟩
  · exact ⟨.le,eq_of_mem_token rfl h⟩
  · exact ⟨.gt,eq_of_mem_token rfl h⟩
  · exact ⟨.ge,eq_of_mem_token rfl h⟩

theorem exists_tail {Op Member : Type} (op : Op → Piece) (member : Member → List Piece)
    {operator phrase : Form} (h : ps ∈ (Form.many (operator * phrase)).language phrases)
    (hop : ∀ ps ∈ operator.language phrases, ∃ o, ps = [op o])
    (hm : ∀ ps ∈ phrase.language phrases, ∃ m, ps = member m) :
    ∃ rest, ps = Chain.tail op member rest := by
  obtain ⟨parts,rfl,hparts⟩ := mem_many.mp h
  clear h
  induction parts with
  | nil => exact ⟨[],rfl⟩
  | cons part parts ih =>
    obtain ⟨qs,hq,rs,hr,hs⟩ := mem_seq.mp (hparts part (by simp))
    obtain ⟨o,rfl⟩ := hop qs hq
    obtain ⟨m,rfl⟩ := hm rs hr
    obtain ⟨rest,ht⟩ := ih (fun part h => hparts part (by simp [h]))
    exact ⟨(o,m) :: rest,by simp [ht,← hs]⟩

theorem exists_of_mem_statements (h : ps ∈ (Form.many (.rule .statement)).language phrases) :
    ∃ b : Block, Spread (Block.pieces b) ps := by
  obtain ⟨parts,rfl,hparts⟩ := mem_many.mp h
  clear h
  induction parts with
  | nil => exact ⟨[],.nil⟩
  | cons part parts ih =>
    obtain ⟨s,hs⟩ := hparts part (by simp)
    obtain ⟨b,hb⟩ := ih (fun part h => hparts part (by simp [h]))
    exact ⟨s :: b,hs.append hb⟩

theorem eq_replicate_of_mem_feeds (h : ps ∈ (Form.many (.token .newline)).language phrases) :
    ∃ n, ps = List.replicate n newline := by
  obtain ⟨parts,rfl,hparts⟩ := mem_many.mp h
  clear h
  induction parts with
  | nil => exact ⟨0,rfl⟩
  | cons part parts ih =>
    obtain ⟨n,hn⟩ := ih (fun part h => hparts part (by simp [h]))
    have hp : part = [newline] := eq_of_mem_token rfl (hparts part (by simp))
    exact ⟨n+1,by simp [hn,hp,List.replicate_succ]⟩

theorem exists_block (kind : BlockKind) {qs : List Piece} (hq : Spread [newline] qs)
    (h : ps ∈ (word kind.start * .rule .comparison * word kind.opener * .rule .lineEnd *
      .many (.rule .statement) * word kind.closer).language phrases) :
    ∃ s : Statement, Spread s.pieces (ps ++ qs) := by
  obtain ⟨_,h₁,_,hcloser,rfl⟩ := mem_seq.mp h
  obtain ⟨_,h₂,body,hbody,rfl⟩ := mem_seq.mp h₁
  obtain ⟨_,h₃,feeds,hfeeds,rfl⟩ := mem_seq.mp h₂
  obtain ⟨_,h₄,_,hopener,rfl⟩ := mem_seq.mp h₃
  obtain ⟨_,hstart,_,⟨condition,rfl⟩,rfl⟩ := mem_seq.mp h₄
  rw [eq_of_mem_word hstart,eq_of_mem_word hopener,eq_of_mem_word hcloser]
  obtain ⟨b,hb⟩ := exists_of_mem_statements hbody
  refine ⟨.block kind condition b,?_⟩
  have hw := (Spread.refl (keyword kind.start :: condition.pieces ++ [keyword kind.opener])).append
    (hfeeds.append (hb.append ((Spread.refl [keyword kind.closer]).append hq)))
  simpa [Statement.pieces] using hw

theorem mem_phrases_statement (h : ps ∈ Rule.statement.form.language phrases) :
    ps ∈ phrases .statement := by
  obtain ⟨core,hcore,feeds,hfeeds,rfl⟩ := mem_seq.mp h
  have close : ∀ {qs : List Piece} (s : Statement), s.pieces = qs ++ [newline] →
      ∃ s : Statement, Spread s.pieces (qs ++ feeds) := by
    intro qs s hs
    exact ⟨s,hs ▸ (Spread.refl qs).append hfeeds⟩
  rcases hcore with (((((hs | hs) | hs) | hs) | hs) | hs) | hs
  · obtain ⟨_,hw,_,hv,rfl⟩ := mem_seq.mp hs
    rw [eq_of_mem_word hw]
    rcases mem_alt.mp hv with ⟨⟨_,text⟩,rfl,rfl,-⟩ | ⟨value,rfl⟩
    · exact close (.printText text) rfl
    · exact close (.printValue value) (by simp [Statement.pieces])
  · exact exists_block .conditional hfeeds hs
  · exact exists_block .loop hfeeds hs
  · obtain ⟨_,hw,_,hn,rfl⟩ := mem_seq.mp hs
    obtain ⟨name,rfl⟩ := exists_of_mem_ident hn
    rw [eq_of_mem_word hw]
    exact close (.label name) rfl
  · obtain ⟨_,hw,_,hn,rfl⟩ := mem_seq.mp hs
    obtain ⟨name,rfl⟩ := exists_of_mem_ident hn
    rw [eq_of_mem_word hw]
    exact close (.goto name) rfl
  · obtain ⟨_,h₁,_,⟨value,rfl⟩,rfl⟩ := mem_seq.mp hs
    obtain ⟨_,h₂,_,he,rfl⟩ := mem_seq.mp h₁
    obtain ⟨_,hw,_,hn,rfl⟩ := mem_seq.mp h₂
    obtain ⟨name,rfl⟩ := exists_of_mem_ident hn
    rw [eq_of_mem_word hw,eq_of_mem_token rfl he]
    exact close (.assign name value) (by simp [Statement.pieces,Piece.assign])
  · obtain ⟨_,hw,_,hn,rfl⟩ := mem_seq.mp hs
    obtain ⟨name,rfl⟩ := exists_of_mem_ident hn
    rw [eq_of_mem_word hw]
    exact close (.input name) rfl

/-- What a rule allows is spelled by a tree. -/
theorem mem_phrases (r : Rule) (h : ps ∈ r.form.language phrases) : ps ∈ phrases r := by
  cases r with
  | program =>
    obtain ⟨_,h₁,_,he,rfl⟩ := mem_seq.mp h
    obtain ⟨_,hf,_,hs,rfl⟩ := mem_seq.mp h₁
    obtain ⟨n,rfl⟩ := eq_replicate_of_mem_feeds hf
    obtain ⟨b,hb⟩ := exists_of_mem_statements hs
    refine ⟨n,b,_,List.append_assoc ..,?_⟩
    rw [eq_of_mem_token rfl he]
    exact hb.append (.refl _)
  | statement => exact mem_phrases_statement h
  | comparison =>
    obtain ⟨_,h₁,_,ht,rfl⟩ := mem_seq.mp h
    obtain ⟨_,h₂,_,⟨second,rfl⟩,rfl⟩ := mem_seq.mp h₁
    obtain ⟨_,⟨first,rfl⟩,_,ho,rfl⟩ := mem_seq.mp h₂
    obtain ⟨op,rfl⟩ := exists_of_mem_comparison ho
    obtain ⟨rest,rfl⟩ := exists_tail Piece.comparison Expression.pieces ht
      (fun _ => exists_of_mem_comparison) (fun _ h => h)
    exact ⟨⟨⟨first,(op,second) :: rest⟩,by simp⟩,by simp [Condition.pieces,Chain.pieces]⟩
  | expression =>
    obtain ⟨_,⟨first,rfl⟩,_,ht,rfl⟩ := mem_seq.mp h
    obtain ⟨rest,rfl⟩ := exists_tail Sign.piece Term.pieces ht
      (fun _ => exists_of_mem_sign) (fun _ h => h)
    exact ⟨⟨first,rest⟩,rfl⟩
  | term =>
    obtain ⟨_,⟨first,rfl⟩,_,ht,rfl⟩ := mem_seq.mp h
    obtain ⟨rest,rfl⟩ := exists_tail Scaling.piece Unary.pieces ht
      (fun _ => exists_of_mem_scaling) (fun _ h => h)
    exact ⟨⟨first,rest⟩,rfl⟩
  | unary =>
    obtain ⟨_,ho,_,⟨primary,rfl⟩,rfl⟩ := mem_seq.mp h
    rcases ho with rfl | hs
    · exact ⟨⟨none,primary⟩,rfl⟩
    · obtain ⟨sign,rfl⟩ := exists_of_mem_sign hs
      exact ⟨⟨some sign,primary⟩,rfl⟩
  | primary =>
    rcases mem_alt.mp h with ⟨⟨_,lexeme⟩,rfl,rfl,-⟩ | hn
    · exact ⟨.number lexeme,rfl⟩
    · obtain ⟨name,rfl⟩ := exists_of_mem_ident hn
      exact ⟨.ident name,rfl⟩
  | lineEnd =>
    obtain ⟨_,hf,_,hs,rfl⟩ := mem_seq.mp h
    obtain ⟨n,rfl⟩ := eq_replicate_of_mem_feeds hs
    rw [eq_of_mem_token rfl hf]
    exact Spread.newline_iff.mpr ⟨n,rfl⟩

end Language

theorem derives_primary (p : Primary) : Derives (.rule .primary) [p.piece.kind] := by
  cases p with
  | number lexeme => exact .rule (.left (.token .number))
  | ident name => exact .rule (.right (.token .ident))

theorem derives_sign (s : Sign) : Derives (.token .plus + .token .minus) [s.piece.kind] := by
  cases s with
  | plus => exact .left (.token .plus)
  | minus => exact .right (.token .minus)

theorem derives_scaling (s : Scaling) :
    Derives (.token .times + .token .slash) [s.piece.kind] := by
  cases s with
  | times => exact .left (.token .times)
  | slash => exact .right (.token .slash)

theorem derives_comparisonOperator (op : Comparison) :
    Derives comparisonOperator [(Piece.comparison op).kind] := by
  cases op with
  | eq => exact .left (.left (.left (.left (.left (.token _)))))
  | ne => exact .left (.left (.left (.left (.right (.token _)))))
  | lt => exact .left (.left (.left (.right (.token _))))
  | le => exact .left (.left (.right (.token _)))
  | gt => exact .left (.right (.token _))
  | ge => exact .right (.token _)

theorem derives_unary (u : Unary) : Derives (.rule .unary) (u.pieces.map Piece.kind) := by
  obtain ⟨_ | sign,primary⟩ := u
  · exact .rule (.seq .absent (derives_primary primary))
  · exact .rule (.seq (.present (derives_sign sign)) (derives_primary primary))

theorem derives_tail {Op Member : Type} {op : Op → Piece} {member : Member → List Piece}
    {operator phrase : Form} (hop : ∀ o, Derives operator [(op o).kind])
    (hm : ∀ m, Derives phrase ((member m).map Piece.kind)) (rest : List (Op × Member)) :
    Derives (.many (operator * phrase)) ((Chain.tail op member rest).map Piece.kind) := by
  induction rest with
  | nil => exact .done
  | cons x rest ih =>
    have hx := Derives.more (.seq (hop x.1) (hm x.2)) ih
    simpa using hx

theorem derives_term (t : Term) : Derives (.rule .term) (t.pieces.map Piece.kind) := by
  have ht := Derives.seq (derives_unary t.first)
    (derives_tail derives_scaling derives_unary t.rest)
  rw [← List.map_append] at ht
  exact .rule ht

theorem derives_expression (e : Expression) :
    Derives (.rule .expression) (e.pieces.map Piece.kind) := by
  have he := Derives.seq (derives_term e.first) (derives_tail derives_sign derives_term e.rest)
  rw [← List.map_append] at he
  exact .rule he

theorem derives_comparison (c : Condition) :
    Derives (.rule .comparison) (c.pieces.map Piece.kind) := by
  obtain ⟨⟨first,rest⟩,h⟩ := c
  cases rest with
  | nil => exact absurd rfl h
  | cons x rest =>
    have ht := derives_tail derives_comparisonOperator derives_expression rest
    have hc := ((Derives.seq (derives_expression first) (derives_comparisonOperator x.1)).seq
      (derives_expression x.2)).seq ht
    refine .rule (?_ : Derives (.rule .expression * comparisonOperator * .rule .expression *
      .many (comparisonOperator * .rule .expression)) _)
    simpa [Condition.pieces,Chain.pieces] using hc

theorem derives_feeds (n : Nat) :
    Derives (.many (.token .newline)) ((List.replicate n newline).map Piece.kind) := by
  induction n with
  | zero => exact .done
  | succ n ih => exact .more (.token .newline) ih

theorem derives_lineEnd {qs : List Piece} (h : Spread [newline] qs) :
    Derives (.rule .lineEnd) (qs.map Piece.kind) := by
  obtain ⟨n,rfl⟩ := Spread.newline_iff.mp h
  exact .rule (.seq (.token .newline) (derives_feeds n))

/-- A statement on one line, in every layout. -/
theorem derives_line (ps : List Piece) {qs : List Piece} (hp : ∀ p ∈ ps, p.kind ≠ .newline)
    (hq : Spread (ps ++ [newline]) qs) {f : Form} (hf : Derives f (ps.map Piece.kind)) :
    Derives (f * .rule .lineEnd) (qs.map Piece.kind) := by
  obtain ⟨feeds,rfl,hs⟩ := (Spread.line_iff hp).mp hq
  rw [List.map_append]
  exact hf.seq (derives_lineEnd hs)

theorem derives_block (kind : BlockKind) {ks : List Kind} {feeds : List Piece}
    (h : Derives (word kind.start * .rule .comparison * word kind.opener * .rule .lineEnd *
      .many (.rule .statement) * word kind.closer) ks) (hf : Spread [newline] feeds) :
    Derives (.rule .statement) (ks ++ feeds.map Piece.kind) := by
  cases kind with
  | conditional =>
    exact .rule (.seq (.left (.left (.left (.left (.left (.right h)))))) (derives_lineEnd hf))
  | loop => exact .rule (.seq (.left (.left (.left (.left (.right h))))) (derives_lineEnd hf))

mutual

theorem derives_statement (s : Statement) {qs : List Piece} (h : Spread s.pieces qs) :
    Derives (.rule .statement) (qs.map Piece.kind) := by
  match s with
  | .printText text =>
    refine .rule (derives_line ([keyword .print,Piece.string text]) (by simp) h ?_)
    exact .left (.left (.left (.left (.left (.left (.seq (.token _) (.left (.token _))))))))
  | .printValue value =>
    refine .rule (derives_line (keyword .print :: value.pieces)
      (by simpa using value.kind_ne_newline) (by simpa [Statement.pieces] using h) ?_)
    exact .left (.left (.left (.left (.left (.left (.seq (.token _)
      (.right (derives_expression value))))))))
  | .block kind condition body =>
    have hc : ∀ p ∈ keyword kind.start :: condition.pieces ++ [keyword kind.opener],
        p.kind ≠ .newline := by
      simpa [or_imp,forall_and] using condition.kind_ne_newline
    have hs : Spread ((keyword kind.start :: condition.pieces ++ [keyword kind.opener] ++
        [newline]) ++ (Block.pieces body ++ ([keyword kind.closer] ++ [newline]))) qs := by
      simpa [Statement.pieces] using h
    obtain ⟨opening,_,rfl,ho,hs⟩ := Spread.append_iff.mp hs
    obtain ⟨inner,closing,rfl,hi,hcl⟩ := Spread.append_iff.mp hs
    obtain ⟨feeds,rfl,hf⟩ := (Spread.line_iff hc).mp ho
    obtain ⟨feeds',rfl,hf'⟩ := (Spread.line_iff (by simp)).mp hcl
    have hd := ((((Derives.token (.keyword kind.start)).seq (derives_comparison condition)).seq
      (Derives.token (.keyword kind.opener))).seq (derives_lineEnd hf)).seq
      (derives_statements body hi) |>.seq (Derives.token (.keyword kind.closer))
    simpa using derives_block kind hd hf'
  | .label name =>
    refine .rule (derives_line ([keyword .label,ident name]) (by simp) h ?_)
    exact .left (.left (.left (.right (.seq (.token _) (.token _)))))
  | .goto name =>
    refine .rule (derives_line ([keyword .goto,ident name]) (by simp) h ?_)
    exact .left (.left (.right (.seq (.token _) (.token _))))
  | .assign name value =>
    refine .rule (derives_line (keyword .let_ :: ident name :: Piece.assign :: value.pieces)
      (by simpa using value.kind_ne_newline) (by simpa [Statement.pieces] using h) ?_)
    exact .left (.right (((Derives.token _).seq (.token _)).seq (.token _) |>.seq
      (derives_expression value)))
  | .input name =>
    refine .rule (derives_line ([keyword .input,ident name]) (by simp) h ?_)
    exact .right (.seq (.token _) (.token _))

theorem derives_statements (b : List Statement) {qs : List Piece}
    (h : Spread (Block.pieces b) qs) :
    Derives (.many (.rule .statement)) (qs.map Piece.kind) := by
  match b with
  | [] =>
    obtain rfl := Spread.nil_iff.mp h
    exact .done
  | s :: b =>
    obtain ⟨rs,rs',rfl,hs,hb⟩ := Spread.append_iff.mp h
    rw [List.map_append]
    exact .more (derives_statement s hs) (derives_statements b hb)

end

/-- The programs of the grammar are the layouts of trees. -/
theorem derives_program_iff {ps : List Piece} (hp : ∀ p ∈ ps, p.WellFormed) :
    Derives (.rule .program) (ps.map Piece.kind) ↔
      ∃ n b qs, ps = List.replicate n newline ++ qs ∧ Spread (Block.program b) qs := by
  constructor
  · intro h
    exact h.mem_language (fun r ps => mem_phrases r) hp rfl
  · rintro ⟨n,b,qs,rfl,hq⟩
    obtain ⟨rs,rs',rfl,hb,he⟩ := Spread.append_iff.mp hq
    obtain rfl := Spread.eq_of_ne_newline (by simp) he
    rw [← List.append_assoc,List.map_append,List.map_append]
    exact .rule (((derives_feeds n).seq (derives_statements b hb)).seq (.token .eof))

end Grammar
end TeenyTiny

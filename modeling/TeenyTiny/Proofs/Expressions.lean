import TeenyTiny.Proofs.Window

/-! The rules for expressions, comparisons and line ends read exactly what their trees spell. -/
namespace TeenyTiny
open Text Piece Ast

/-- The operators of expressions and comparisons. They are copied as they are. -/
def Kind.isOperator (k : Kind) : Bool :=
  Generator.isSign k || Generator.isFactorOperator k || k.isComparison

theorem Kind.isCopied_of_isOperator {k : Kind} (h : k.isOperator) : k.isCopied := by
  cases k <;> first | rfl | cases h

namespace Generator

/-- With enough fuel, a step that succeeds passes the passage of a tree up to a token that may
follow it, and it succeeds on every such passage. -/
structure Recognizes {τ : Type} (step : Step Unit) (fuel : Nat) (follow : Kind → Prop)
    (passage : τ → Passage) : Prop where
  sound : ∀ {g g' s}, g.In s → s.ahead.length ≤ fuel → step g = .ok () g' →
    ∃ t s', s.Reads s' (passage t) ∧ g'.In s' ∧ follow s'.kind
  complete : ∀ {g s s' t}, g.In s → s.ahead.length ≤ fuel → s.Reads s' (passage t) → s'.Clean →
    follow s'.kind → ∃ g', step g = .ok () g' ∧ g'.In s'

section Loop
variable {p : Kind → Bool} {step : Step Unit} {g g' : Generator} {n : Nat}

theorem repeatWhile_succ_ok : repeatWhile p step (n + 1) g = .ok () g' ↔
    (p g.current.kind = true ∧ ∃ g₁, step g = .ok () g₁ ∧ repeatWhile p step n g₁ = .ok () g') ∨
      (p g.current.kind = false ∧ g = g') := by
  rw [repeatWhile,currentToken_bind_ok]
  cases p g.current.kind with
  | true =>
    rw [if_pos rfl,then_ok]
    simp only [true_and,Bool.true_eq_false,false_and,or_false]
  | false =>
    rw [if_neg (by simp),pure_ok]
    simp

end Loop

section Newlines
variable {g g' : Generator} {s : Scene}

theorem kind_eq_newline {t : Token} (ht : t.piece.WellFormed) :
    t.kind = .newline ↔ t.piece = newline := by
  constructor
  · intro hk
    have hp : t.piece.kind = .newline := hk
    rw [ht.eq_of_spelling (by rw [hp]; rfl),hp]
    rfl
  · intro hp
    exact congrArg Piece.kind hp

/-- The loop over line feeds passes all of them. -/
theorem In.newlines (hg : g.In s) {n : Nat} (hn : s.ahead.length ≤ n)
    (h : repeatWhile (· = .newline) Generator.advance n g = .ok () g') :
    ∃ (ts : List Token) (rest : List (Except Fault Token)), s.ahead = ts.map .ok ++ rest ∧
      (∀ t ∈ ts, t.piece = newline) ∧ g'.In { s with ahead := rest } ∧
      ({ s with ahead := rest } : Scene).kind ≠ .newline := by
  induction n generalizing g s with
  | zero =>
    obtain rfl := (pure_ok.mp h).2
    have ha : s.ahead = [] := by simpa using hn
    exact ⟨[],s.ahead,rfl,by simp,hg,by simp [Scene.kind,ha]⟩
  | succ n ih =>
    rcases repeatWhile_succ_ok.mp h with ⟨hk,g₁,h₁,h₂⟩ | ⟨hk,rfl⟩
    · have hk : g.current.kind = .newline := by simpa using hk
      have he : s.kind ≠ .eof := by rw [← hg.current_kind,hk]; simp
      obtain ⟨rest,ha⟩ := hg.ahead_eq he
      have hn : rest.length ≤ n := by simpa [ha] using hn
      obtain ⟨ts,rest',(rfl : rest = _),hts,hg'⟩ := ih (hg.advance ha h₁) hn h₂
      refine ⟨g.current :: ts,rest',ha,?_,hg'⟩
      exact List.forall_mem_cons.mpr ⟨(kind_eq_newline (hg.wellFormed he)).mp hk,hts⟩
    · rw [hg.current_kind] at hk
      exact ⟨[],s.ahead,rfl,by simp,hg,of_decide_eq_false hk⟩

theorem In.exists_newlines {ts : List Token} {rest : List (Except Fault Token)} (hg : g.In s)
    (ha : s.ahead = ts.map .ok ++ rest) (hts : ∀ t ∈ ts, t.piece = newline)
    (hk : ({ s with ahead := rest } : Scene).kind ≠ .newline)
    (hc : ({ s with ahead := rest } : Scene).Clean) {n : Nat} (hn : ts.length ≤ n) :
    ∃ g', repeatWhile (· = .newline) Generator.advance n g = .ok () g' ∧
      g'.In { s with ahead := rest } := by
  induction ts generalizing g s n with
  | nil =>
    obtain rfl : s.ahead = rest := ha
    refine ⟨g,?_,hg⟩
    cases n with
    | zero => exact pure_ok.mpr ⟨rfl,rfl⟩
    | succ n =>
      refine repeatWhile_succ_ok.mpr (.inr ⟨?_,rfl⟩)
      rw [hg.current_kind]
      exact decide_eq_false hk
  | cons t ts ih =>
    obtain ⟨n,rfl⟩ := Nat.exists_eq_add_of_le' (Nat.lt_of_lt_of_le Nat.zero_lt_one
      ((Nat.le_add_left 1 ts.length).trans hn))
    have hs : s.Clean := by
      intro fault hf
      rw [ha] at hf
      rcases List.mem_append.mp hf with hf | hf
      · simp at hf
      · exact hc fault hf
    obtain ⟨g₁,h₁⟩ := hg.exists_advance hs
    have hg₁ := hg.advance (by rw [ha]; rfl) h₁
    obtain ⟨g',h',hg'⟩ := ih hg₁ rfl (fun u hu => hts u (by simp [hu])) hk hc
      (by simpa using hn)
    refine ⟨g',repeatWhile_succ_ok.mpr (.inl ⟨?_,g₁,h₁,h'⟩),hg'⟩
    have ht : g.current.kind = .newline := by
      rw [hg.current_eq (t := t) (by rw [ha]; rfl)]
      exact congrArg Piece.kind (hts t (by simp))
    simpa using ht

theorem lineEnd_ok {fuel : Nat} : lineEnd fuel g = .ok () g' ↔ g.current.kind = .newline ∧
    ∃ g₁, Generator.advance g = .ok () g₁ ∧
      repeatWhile (· = .newline) Generator.advance fuel g₁ = .ok () g' := by
  unfold lineEnd
  rw [bind_ok]
  constructor
  · rintro ⟨t,g₁,h,h'⟩
    obtain ⟨hk,-,ha⟩ := expect_ok.mp h
    exact ⟨hk,g₁,ha,h'⟩
  · rintro ⟨hk,g₁,ha,h'⟩
    exact ⟨g.current,g₁,expect_ok.mpr ⟨hk,rfl,ha⟩,h'⟩

theorem reads_newline {s' : Scene} : s.Reads s' (.token newline) ↔ ∃ (t : Token) (ts : List Token),
    (∀ u ∈ t :: ts, u.piece = newline) ∧
      s = { s' with ahead := .ok t :: (ts.map .ok ++ s'.ahead) } := by
  constructor
  · rintro ⟨⟨ts,ha,hs⟩,-,he,hb⟩
    obtain ⟨n,hn⟩ := Spread.newline_iff.mp hs
    obtain ⟨ahead,events,body⟩ := s
    cases ts with
    | nil => cases hn
    | cons t ts =>
      refine ⟨t,ts,fun u hu => ?_,?_⟩
      · exact List.eq_of_mem_replicate (hn ▸ List.mem_map_of_mem hu)
      · simp_all [Passage.token]
  · rintro ⟨t,ts,hts,rfl⟩
    refine ⟨⟨t :: ts,rfl,Spread.newline_iff.mpr ⟨ts.length,?_⟩⟩,trivial,?_,?_⟩
    · refine List.eq_replicate_iff.mpr ⟨by simp,fun x hx => ?_⟩
      obtain ⟨u,hu,rfl⟩ := List.mem_map.mp hx
      exact hts u hu
    · simp [Passage.token]
    · simp [Passage.token]

/-- The end of a line is one line feed or more. -/
theorem recognizes_lineEnd (fuel : Nat) :
    Recognizes (lineEnd fuel) fuel (· ≠ .newline) (fun _ : Unit => .token newline) where
  sound {g g' s} hg hf h := by
    obtain ⟨hk,g₁,h₁,h₂⟩ := lineEnd_ok.mp h
    have he : s.kind ≠ .eof := by rw [← hg.current_kind,hk]; simp
    obtain ⟨rest,ha⟩ := hg.ahead_eq he
    have hf : rest.length ≤ fuel := by rw [ha,List.length_cons] at hf; omega
    obtain ⟨ts,rest',ha',hts,hg',hk'⟩ := (hg.advance ha h₁).newlines hf h₂
    refine ⟨(),_,reads_newline.mpr ⟨g.current,ts,?_,?_⟩,hg',hk'⟩
    · exact List.forall_mem_cons.mpr ⟨(kind_eq_newline (hg.wellFormed he)).mp hk,hts⟩
    · rw [← ha',← ha]
  complete {g s s' t} hg hf hr hc hk := by
    obtain ⟨g₁,h₁⟩ := hg.exists_advance (hr.clean hc)
    obtain ⟨t,ts,hts,rfl⟩ := reads_newline.mp hr
    have hg₁ := hg.advance rfl h₁
    obtain ⟨g',h',hg'⟩ := hg₁.exists_newlines rfl (fun u hu => hts u (by simp [hu])) hk hc
      (n := fuel) (by simp at hf; omega)
    refine ⟨g',lineEnd_ok.mpr ⟨?_,g₁,h₁,h'⟩,hg'⟩
    rw [hg.current_eq rfl]
    exact congrArg Piece.kind (hts t (by simp))

end Newlines

section Copy
variable {g g' : Generator} {s s' : Scene} {x : Piece}

theorem copy_operator (hx : x.kind.isOperator) :
    Passage.copy [x] = .write x.lexeme ++ .token x := by
  have hn : x.kind ≠ .number := by intro h; rw [h] at hx; cases hx
  have hi : x.kind ≠ .ident := by intro h; rw [h] at hx; cases hx
  simp [Passage.copy,Passage.write,Passage.token,Passage.append_def,events,eventsAfter,
    Piece.code,hn,hi]

theorem copy_number (lexeme : List Char) : Passage.copy [number lexeme] =
    .write (cNumber lexeme) ++ .token (number lexeme) := by
  simp [Passage.copy,Passage.write,Passage.token,Passage.append_def,events,eventsAfter,Piece.code]

theorem copy_ident (n : List Char) : Passage.copy [ident n] =
    .event (.use (encode n)) ++ (.write n ++ .token (ident n)) := by
  simp [Passage.copy,Passage.write,Passage.event,Passage.token,Passage.append_def,events,
    eventsAfter,Piece.code]

theorem reads_copy_nil : s.Reads s' (.copy []) ↔ s = s' := by
  rw [show Passage.copy [] = .write [] from rfl,Scene.reads_write,List.append_nil]
  exact eq_comm

theorem In.use (hg : g.In s) {n : Bytes} : g.In { s with events := s.events ++ [.use n] } :=
  ⟨hg.window,hg.proper,hg.symbols.use,hg.header,hg.body,hg.writable⟩

/-- A text is written and then the current token passed. -/
theorem In.write_token (hg : g.In s) {text : Bytes} {cs : List Char} {g₁ : Generator}
    (he : Generator.emit text g = .ok () g₁) (ht : text = encode cs)
    (ha : Generator.advance g₁ = .ok () g') (hx : g.current.piece = x)
    (hn : x.kind ≠ .newline) (hf : x.kind ≠ .eof) :
    ∃ s', s.Reads s' (.write cs ++ .token x) ∧ g'.In s' := by
  obtain ⟨s₁,hr₁,hg₁⟩ := hg.emit ht he
  obtain ⟨s₂,hr₂,hg₂⟩ := hg₁.token ha (by rw [emit_current he,hx]) hn hf
  exact ⟨s₂,hr₁.trans hr₂,hg₂⟩

theorem In.exists_write_token (hg : g.In s) {text : Bytes} {cs : List Char}
    (ht : text = encode cs) (hr : s.Reads s' (.write cs ++ .token x)) (hn : x.kind ≠ .newline)
    (hc : s'.Clean) : ∃ g₁ g', Generator.emit text g = .ok () g₁ ∧
      Generator.advance g₁ = .ok () g' ∧ g'.In s' := by
  obtain ⟨s₁,hr₁,hr₂⟩ := Scene.reads_append.mp hr
  obtain ⟨g₁,h₁,hg₁⟩ := hg.exists_emit ht hr₁
  obtain ⟨-,g',h₂,hg'⟩ := hg₁.exists_token hr₂ hn hc
  exact ⟨g₁,g',h₁,h₂,hg'⟩

theorem copyToken_ok : copyToken g = .ok () g' ↔
    ∃ g₁, Generator.emit g.current.text g = .ok () g₁ ∧ Generator.advance g₁ = .ok () g' := by
  rw [copyToken,currentToken_bind_ok,then_ok]

theorem In.copyToken (hg : g.In s) (h : copyToken g = .ok () g') (hx : g.current.piece = x)
    (ho : x.kind.isOperator) : ∃ s', s.Reads s' (.copy [x]) ∧ g'.In s' := by
  obtain ⟨g₁,he,ha⟩ := copyToken_ok.mp h
  rw [copy_operator ho]
  refine hg.write_token he (by rw [← hx]; rfl) ha hx ?_ ?_
  · intro hk
    rw [hk] at ho
    cases ho
  · intro hk
    rw [hk] at ho
    cases ho

theorem In.exists_copyToken (hg : g.In s) (hr : s.Reads s' (.copy [x])) (ho : x.kind.isOperator)
    (hc : s'.Clean) : ∃ g', Generator.copyToken g = .ok () g' ∧ g'.In s' := by
  have hx := hg.current_piece hr rfl
  rw [copy_operator ho] at hr
  have hn : x.kind ≠ .newline := by intro hk; rw [hk] at ho; cases ho
  have ht : g.current.text = encode x.lexeme := by rw [← hx]; rfl
  obtain ⟨g₁,g',he,ha,hg'⟩ := hg.exists_write_token ht hr hn hc
  exact ⟨g',copyToken_ok.mpr ⟨g₁,he,ha⟩,hg'⟩

end Copy

section Primary
variable {g g' : Generator} {s s' : Scene}

theorem primary_ok : primary g = .ok () g' ↔ ∃ g₁, Generator.advance g₁ = .ok () g' ∧
    ((g.current.kind = .number ∧
        Generator.emit (encode (cNumber g.current.lexeme)) g = .ok () g₁) ∨
      (g.current.kind = .ident ∧ g.symbols.isDefined g.current.text = true ∧
        Generator.emit g.current.text g = .ok () g₁)) := by
  unfold primary
  rw [currentToken_bind_ok]
  cases hk : g.current.kind with
  | number =>
    simp only [then_ok,true_and,reduceCtorEq,false_and,or_false]
    exact exists_congr fun _ => and_comm
  | ident =>
    rw [bind_ok]
    simp only [get_ok,true_and,reduceCtorEq,false_and,false_or]
    cases hd : g.symbols.isDefined g.current.text with
    | true =>
      constructor
      · rintro ⟨_,_,⟨rfl,rfl⟩,h⟩
        rw [hd,if_neg (by simp),then_ok] at h
        obtain ⟨g₁,he,ha⟩ := h
        exact ⟨g₁,ha,rfl,he⟩
      · rintro ⟨g₁,ha,-,he⟩
        refine ⟨g,g,⟨rfl,rfl⟩,?_⟩
        rw [hd,if_neg (by simp),then_ok]
        exact ⟨g₁,he,ha⟩
    | false =>
      simp only [Bool.false_eq_true,false_and,and_false,exists_false,iff_false]
      rintro ⟨_,_,⟨rfl,rfl⟩,h⟩
      rw [hd,if_pos (by simp),bind_ok] at h
      obtain ⟨_,_,h,-⟩ := h
      exact fail_not_ok h
  | _ => simp only [bind_ok,fail_not_ok,reduceCtorEq,false_and,and_false,or_self,exists_false]

theorem unary_ok : unary g = .ok () g' ↔
    (isSign g.current.kind = true ∧ ∃ g₁, Generator.copyToken g = .ok () g₁ ∧
      primary g₁ = .ok () g') ∨ (isSign g.current.kind = false ∧ primary g = .ok () g') := by
  rw [unary,currentToken_bind_ok]
  cases hs : isSign g.current.kind with
  | true =>
    rw [if_pos rfl,then_ok]
    simp only [true_and,Bool.true_eq_false,false_and,or_false]
  | false =>
    rw [if_neg (by simp)]
    simp

theorem recognizes_primary (fuel : Nat) : Recognizes primary fuel (fun _ => True)
    (fun p : Primary => .copy [p.piece]) where
  sound {g g' s} hg _ h := by
    obtain ⟨g₁,ha,⟨hk,he⟩ | ⟨hk,hd,he⟩⟩ := primary_ok.mp h
    · have hp : g.current.piece = number g.current.lexeme := Token.piece_eq hk
      obtain ⟨s',hr,hg'⟩ := hg.write_token he rfl ha hp (by simp) (by simp)
      refine ⟨.number g.current.lexeme,s',?_,hg',trivial⟩
      rw [Primary.piece,copy_number]
      exact hr
    · have hp : g.current.piece = ident g.current.lexeme := Token.piece_eq hk
      have hu : s.Reads { s with events := s.events ++ [.use g.current.text] }
          (.event (.use g.current.text)) :=
        Scene.reads_event.mpr ⟨hg.symbols.isDefined.mp hd,rfl⟩
      obtain ⟨s',hr,hg'⟩ := hg.use.write_token he rfl ha hp (by simp) (by simp)
      refine ⟨.ident g.current.lexeme,s',?_,hg',trivial⟩
      rw [Primary.piece,copy_ident]
      exact hu.trans hr
  complete {g s s' p} hg _ hr hc _ := by
    have hp := hg.current_piece hr rfl
    cases p with
    | number lexeme =>
      rw [Primary.piece,copy_number] at hr
      obtain ⟨rfl⟩ : lexeme = g.current.lexeme := (congrArg Piece.lexeme hp).symm
      obtain ⟨g₁,g',he,ha,hg'⟩ := hg.exists_write_token rfl hr (by simp) hc
      exact ⟨g',primary_ok.mpr ⟨g₁,ha,.inl ⟨congrArg Piece.kind hp,he⟩⟩,hg'⟩
    | ident n =>
      rw [Primary.piece,copy_ident] at hr
      obtain ⟨rfl⟩ : n = g.current.lexeme := (congrArg Piece.lexeme hp).symm
      obtain ⟨s₁,hu,hr⟩ := Scene.reads_append.mp hr
      obtain ⟨hd,rfl⟩ := Scene.reads_event.mp hu
      obtain ⟨g₁,g',he,ha,hg'⟩ := hg.use.exists_write_token rfl hr (by simp) hc
      refine ⟨g',primary_ok.mpr ⟨g₁,ha,.inr ⟨congrArg Piece.kind hp,?_,he⟩⟩,hg'⟩
      exact hg.symbols.isDefined.mpr hd

end Primary

/-- These are the operators that the generator knows by `p`. -/
structure Operators {Op : Type} (op : Op → Piece) (p : Kind → Bool) : Prop where
  kind : ∀ o, p (op o).kind = true
  isOperator : ∀ o, (op o).kind.isOperator = true
  exists_eq : ∀ x : Piece, x.WellFormed → p x.kind = true → ∃ o, op o = x

theorem Operators.eof {Op : Type} {op : Op → Piece} {p : Kind → Bool} (h : Operators op p) :
    p .eof = false := by
  by_contra hp
  obtain ⟨o,ho⟩ := h.exists_eq Piece.eof rfl (by simpa using hp)
  have hk := h.isOperator o
  rw [ho] at hk
  cases hk

/-- In front of an operator the end is not reached. -/
theorem Operators.ne_eof {Op : Type} {op : Op → Piece} {p : Kind → Bool} (h : Operators op p)
    {g : Generator} {s : Scene} (hg : g.In s) (hp : p g.current.kind = true) : s.kind ≠ .eof := by
  intro he
  rw [hg.current_kind,he,h.eof] at hp
  cases hp

theorem operators_sign : Operators Sign.piece isSign where
  kind o := by cases o <;> rfl
  isOperator o := by cases o <;> rfl
  exists_eq x hx hk := by
    have hk : x.kind = .plus ∨ x.kind = .minus := by simpa [isSign] using hk
    rcases hk with hk | hk
    · exact ⟨.plus,by rw [hx.eq_of_spelling (by rw [hk]; rfl),hk]; rfl⟩
    · exact ⟨.minus,by rw [hx.eq_of_spelling (by rw [hk]; rfl),hk]; rfl⟩

theorem operators_scaling : Operators Scaling.piece isFactorOperator where
  kind o := by cases o <;> rfl
  isOperator o := by cases o <;> rfl
  exists_eq x hx hk := by
    have hk : x.kind = .times ∨ x.kind = .slash := by simpa [isFactorOperator] using hk
    rcases hk with hk | hk
    · exact ⟨.times,by rw [hx.eq_of_spelling (by rw [hk]; rfl),hk]; rfl⟩
    · exact ⟨.slash,by rw [hx.eq_of_spelling (by rw [hk]; rfl),hk]; rfl⟩

theorem operators_comparison : Operators Piece.comparison Kind.isComparison where
  kind _ := rfl
  isOperator _ := rfl
  exists_eq x hx hk := by
    obtain ⟨kind,lexeme⟩ := x
    cases kind with
    | comparison op => exact ⟨op,(hx.eq_of_spelling rfl).symm⟩
    | _ => cases hk

section Chains
variable {Op Member : Type} {op : Op → Piece} {member : Member → List Piece}
  {p : Kind → Bool} {step : Step Unit} {fuel : Nat} {follow : Kind → Prop}

theorem recognizes_unary (fuel : Nat) :
    Recognizes unary fuel (fun _ => True) (fun u : Unary => .copy u.pieces) where
  sound {g g' s} hg hl h := by
    rcases unary_ok.mp h with ⟨hs,g₁,h₁,h₂⟩ | ⟨-,h⟩
    · have he := operators_sign.ne_eof hg hs
      obtain ⟨sign,hx⟩ := operators_sign.exists_eq g.current.piece (hg.wellFormed he) hs
      obtain ⟨s₁,hr₁,hg₁⟩ := hg.copyToken h₁ hx.symm (operators_sign.isOperator sign)
      obtain ⟨primary,s',hr₂,hg'⟩ :=
        (recognizes_primary fuel).sound hg₁ (hr₁.length_le.trans hl) h₂
      refine ⟨⟨some sign,primary⟩,s',?_,hg'⟩
      have hs : Settled [sign.piece] := settled_of_isCopied (by simpa using sign.isCopied)
      exact (Passage.copy_append hs [primary.piece]).symm ▸ hr₁.trans hr₂
    · obtain ⟨primary,s',hr,hg'⟩ := (recognizes_primary fuel).sound hg hl h
      exact ⟨⟨none,primary⟩,s',hr,hg'⟩
  complete {g s s' u} hg hl hr hc _ := by
    obtain ⟨_ | sign,primary⟩ := u
    · obtain ⟨g',h,hg'⟩ := (recognizes_primary fuel).complete (t := primary) hg hl hr hc trivial
      refine ⟨g',unary_ok.mpr (.inr ⟨?_,h⟩),hg'⟩
      have hk : g.current.kind = primary.piece.kind :=
        hg.current_kind.trans (hr.kind_eq rfl)
      rw [hk]
      cases primary <;> rfl
    · have hs : Settled [sign.piece] := settled_of_isCopied (by simpa using sign.isCopied)
      have hr : s.Reads s' (.copy ([sign.piece] ++ [primary.piece])) := hr
      rw [Passage.copy_append hs] at hr
      obtain ⟨s₁,hr₁,hr₂⟩ := Scene.reads_append.mp hr
      obtain ⟨g₁,h₁,hg₁⟩ := hg.exists_copyToken hr₁ (operators_sign.isOperator sign)
        (hr₂.clean hc)
      obtain ⟨g',h₂,hg'⟩ := (recognizes_primary fuel).complete (t := primary) hg₁
        (hr₁.length_le.trans hl) hr₂ hc trivial
      refine ⟨g',unary_ok.mpr (.inl ⟨?_,g₁,h₁,h₂⟩),hg'⟩
      rw [hg.current_kind,hr₁.kind_eq rfl]
      exact operators_sign.kind sign

/-- What the loop over operators does with its first operator and member. -/
theorem copy_tail_cons (hop : Operators op p) (hm : ∀ m, ∀ x ∈ member m, x.kind.isCopied)
    (o : Op) (m : Member) (rest : List (Op × Member)) :
    Passage.copy (Chain.tail op member ((o,m) :: rest)) =
      .copy [op o] ++ (.copy (member m) ++ .copy (Chain.tail op member rest)) := by
  have ho : Settled [op o] := settled_of_isCopied
    (by simpa using Kind.isCopied_of_isOperator (hop.isOperator o))
  rw [Chain.tail_cons,← List.singleton_append,Passage.copy_append ho,
    Passage.copy_append (settled_of_isCopied (hm m))]

/-- Behind a member comes an operator or what may follow the chain. -/
theorem follow_tail (hop : Operators op p) (hf : ∀ k, p k = true → follow k) {s s' : Scene}
    {rest : List (Op × Member)} (hr : s.Reads s' (.copy (Chain.tail op member rest)))
    (hk : follow s'.kind) : follow s.kind := by
  cases rest with
  | nil =>
    obtain rfl := reads_copy_nil.mp hr
    exact hk
  | cons x rest =>
    rw [hr.kind_eq rfl]
    exact hf _ (hop.kind x.1)

/-- The loop over operators passes all of them, each with its member. -/
theorem In.tail (hop : Operators op p) (hm : ∀ m, ∀ x ∈ member m, x.kind.isCopied)
    (hs : Recognizes step fuel follow (fun m => .copy (member m))) {n : Nat} (hn : n ≤ fuel)
    {g g' : Generator} {s : Scene} (hg : g.In s) (hl : s.ahead.length ≤ n) (hk : follow s.kind)
    (h : repeatWhile p (do Generator.copyToken; step) n g = .ok () g') :
    ∃ rest s', s.Reads s' (.copy (Chain.tail op member rest)) ∧ g'.In s' ∧
      follow s'.kind ∧ p s'.kind = false := by
  induction n generalizing g s with
  | zero =>
    have ha : s.ahead = [] := by simpa using hl
    obtain rfl := (pure_ok.mp h).2
    exact ⟨[],s,reads_copy_nil.mpr rfl,hg,hk,by simpa [Scene.kind,ha] using hop.eof⟩
  | succ n ih =>
    rcases repeatWhile_succ_ok.mp h with ⟨hp,g₂,h₂,h₃⟩ | ⟨hp,rfl⟩
    · obtain ⟨_,g₁,h₁,h₂⟩ := bind_ok.mp h₂
      obtain ⟨o,hx⟩ := hop.exists_eq g.current.piece (hg.wellFormed (hop.ne_eof hg hp)) hp
      obtain ⟨s₁,hr₁,hg₁⟩ := hg.copyToken h₁ hx.symm (hop.isOperator o)
      -- every operator takes a token, so the fuel is enough for what is left
      have hl₁ : 1 + s₁.ahead.length ≤ s.ahead.length := hr₁.length_add_le
      obtain ⟨m,s₂,hr₂,hg₂,hk₂⟩ := hs.sound hg₁ (by omega) h₂
      have hl₂ := hr₂.length_le
      obtain ⟨rest,s',hr₃,hg',hk'⟩ := ih (by omega) hg₂ (by omega) hk₂ h₃
      refine ⟨(o,m) :: rest,s',?_,hg',hk'⟩
      rw [copy_tail_cons hop hm]
      exact hr₁.trans (hr₂.trans hr₃)
    · exact ⟨[],s,reads_copy_nil.mpr rfl,hg,hk,hg.current_kind ▸ hp⟩

theorem In.exists_tail (hop : Operators op p) (hm : ∀ m, ∀ x ∈ member m, x.kind.isCopied)
    (hf : ∀ k, p k = true → follow k)
    (hs : Recognizes step fuel follow (fun m => .copy (member m))) {n : Nat} (hn : n ≤ fuel)
    {g : Generator} {s s' : Scene} {rest : List (Op × Member)} (hg : g.In s)
    (hl : s.ahead.length ≤ n) (hr : s.Reads s' (.copy (Chain.tail op member rest)))
    (hc : s'.Clean) (hk : follow s'.kind) (hp : p s'.kind = false) :
    ∃ g', repeatWhile p (do Generator.copyToken; step) n g = .ok () g' ∧ g'.In s' := by
  induction rest generalizing g s n with
  | nil =>
    obtain rfl := reads_copy_nil.mp hr
    refine ⟨g,?_,hg⟩
    cases n with
    | zero => exact pure_ok.mpr ⟨rfl,rfl⟩
    | succ n =>
      refine repeatWhile_succ_ok.mpr (.inr ⟨?_,rfl⟩)
      rw [hg.current_kind]
      exact hp
  | cons x rest ih =>
    obtain ⟨o,m⟩ := x
    have hx := hr.kind_eq rfl
    rw [copy_tail_cons hop hm] at hr
    obtain ⟨s₁,hr₁,hr₂⟩ := Scene.reads_append.mp hr
    obtain ⟨s₂,hr₂,hr₃⟩ := Scene.reads_append.mp hr₂
    have hl₁ : 1 + s₁.ahead.length ≤ s.ahead.length := hr₁.length_add_le
    have hl₂ := hr₂.length_le
    obtain ⟨n,rfl⟩ := Nat.exists_eq_add_one_of_ne_zero (n := n) (by omega)
    obtain ⟨g₁,h₁,hg₁⟩ := hg.exists_copyToken hr₁ (hop.isOperator o)
      (hr₂.clean (hr₃.clean hc))
    obtain ⟨g₂,h₂,hg₂⟩ := hs.complete hg₁ (by omega) hr₂ (hr₃.clean hc)
      (follow_tail hop hf hr₃ hk)
    obtain ⟨g',h₃,hg'⟩ := ih (n := n) (by omega) hg₂ (by omega) hr₃
    refine ⟨g',repeatWhile_succ_ok.mpr (.inl ⟨?_,g₂,bind_ok.mpr ⟨(),g₁,h₁,h₂⟩,h₃⟩),hg'⟩
    rw [hg.current_kind,hx]
    exact hop.kind o

/-- A chain is read by its first member and the loop over its operators. -/
theorem recognizes_chain (hop : Operators op p) (hm : ∀ m, ∀ x ∈ member m, x.kind.isCopied)
    (hf : ∀ k, p k = true → follow k)
    (hs : Recognizes step fuel follow (fun m => .copy (member m))) :
    Recognizes (do step; repeatWhile p (do copyToken; step) fuel) fuel
      (fun k => follow k ∧ p k = false) (fun c => .copy (Chain.pieces op member c)) where
  sound {g g' s} hg hl h := by
    obtain ⟨_,g₁,h₁,h₂⟩ := bind_ok.mp h
    obtain ⟨m,s₁,hr₁,hg₁,hk₁⟩ := hs.sound hg hl h₁
    obtain ⟨rest,s',hr₂,hg',hk⟩ := In.tail hop hm hs le_rfl hg₁ (hr₁.length_le.trans hl) hk₁ h₂
    refine ⟨⟨m,rest⟩,s',?_,hg',hk⟩
    rw [Chain.pieces,Passage.copy_append (settled_of_isCopied (hm m))]
    exact hr₁.trans hr₂
  complete {g s s' c} hg hl hr hc hk := by
    rw [Chain.pieces,Passage.copy_append (settled_of_isCopied (hm c.first))] at hr
    obtain ⟨s₁,hr₁,hr₂⟩ := Scene.reads_append.mp hr
    obtain ⟨g₁,h₁,hg₁⟩ := hs.complete hg hl hr₁ (hr₂.clean hc) (follow_tail hop hf hr₂ hk.1)
    obtain ⟨g',h₂,hg'⟩ := In.exists_tail hop hm hf hs le_rfl hg₁ (hr₁.length_le.trans hl) hr₂ hc
      hk.1 hk.2
    exact ⟨g',bind_ok.mpr ⟨(),g₁,h₁,h₂⟩,hg'⟩

end Chains

/-- Kinds that may stand behind a term, an expression and a comparison. -/
def endsTerm (k : Kind) : Prop := isFactorOperator k = false

def endsExpression (k : Kind) : Prop := endsTerm k ∧ isSign k = false

def endsComparison (k : Kind) : Prop := endsExpression k ∧ k.isComparison = false

theorem recognizes_term (fuel : Nat) :
    Recognizes (term fuel) fuel endsTerm (fun t : Term => .copy t.pieces) := by
  have h := recognizes_chain operators_scaling Unary.isCopied (fun _ _ => trivial)
    (recognizes_unary fuel)
  simp only [true_and] at h
  exact h

theorem endsTerm_of_isSign (k : Kind) (hk : isSign k = true) : endsTerm k := by
  cases k <;> first | rfl | cases hk

theorem recognizes_expression (fuel : Nat) :
    Recognizes (expression fuel) fuel endsExpression (fun e : Expression => .copy e.pieces) :=
  recognizes_chain operators_sign Term.isCopied endsTerm_of_isSign (recognizes_term fuel)

theorem endsExpression_of_isComparison (k : Kind) (hk : k.isComparison = true) :
    endsExpression k := by
  cases k <;> first | exact ⟨rfl,rfl⟩ | cases hk

theorem comparison_ok {g g' : Generator} {fuel : Nat} : comparison fuel g = .ok () g' ↔
    ∃ g₁, expression fuel g = .ok () g₁ ∧ g₁.current.kind.isComparison = true ∧
      repeatWhile Kind.isComparison (do copyToken; expression fuel) fuel g₁ = .ok () g' := by
  rw [comparison,bind_ok]
  constructor
  · rintro ⟨_,g₁,h₁,h₂⟩
    rw [currentToken_bind_ok] at h₂
    cases hk : g₁.current.kind.isComparison with
    | true =>
      rw [hk,if_neg (by simp)] at h₂
      exact ⟨g₁,h₁,hk,h₂⟩
    | false =>
      rw [hk,if_pos (by simp),bind_ok] at h₂
      obtain ⟨_,_,h₂,-⟩ := h₂
      exact absurd h₂ fail_not_ok
  · rintro ⟨g₁,h₁,hk,h₂⟩
    refine ⟨(),g₁,h₁,?_⟩
    rw [currentToken_bind_ok,hk,if_neg (by simp)]
    exact h₂

theorem recognizes_comparison (fuel : Nat) :
    Recognizes (comparison fuel) fuel endsComparison (fun c : Condition => .copy c.pieces) where
  sound {g g' s} hg hl h := by
    obtain ⟨g₁,h₁,hc,h₂⟩ := comparison_ok.mp h
    obtain ⟨e,s₁,hr₁,hg₁,hk₁⟩ := (recognizes_expression fuel).sound hg hl h₁
    obtain ⟨rest,s',hr₂,hg',hk⟩ := In.tail operators_comparison Expression.isCopied
      (recognizes_expression fuel) le_rfl hg₁ (hr₁.length_le.trans hl) hk₁ h₂
    refine ⟨⟨⟨e,rest⟩,?_⟩,s',?_,hg',hk⟩
    · rintro rfl
      obtain rfl := reads_copy_nil.mp hr₂
      rw [hg₁.current_kind,hk.2] at hc
      cases hc
    · rw [Condition.pieces,Chain.pieces,Passage.copy_append (settled_of_isCopied e.isCopied)]
      exact hr₁.trans hr₂
  complete {g s s' c} hg hl hr hc hk := by
    obtain ⟨⟨e,rest⟩,hne⟩ := c
    rw [Condition.pieces,Chain.pieces,Passage.copy_append (settled_of_isCopied e.isCopied)] at hr
    obtain ⟨s₁,hr₁,hr₂⟩ := Scene.reads_append.mp hr
    obtain ⟨g₁,h₁,hg₁⟩ := (recognizes_expression fuel).complete hg hl hr₁ (hr₂.clean hc)
      (follow_tail operators_comparison endsExpression_of_isComparison hr₂ hk.1)
    obtain ⟨g',h₂,hg'⟩ := In.exists_tail operators_comparison Expression.isCopied
      endsExpression_of_isComparison (recognizes_expression fuel) le_rfl hg₁
      (hr₁.length_le.trans hl) hr₂ hc hk.1 hk.2
    refine ⟨g',comparison_ok.mpr ⟨g₁,h₁,?_,h₂⟩,hg'⟩
    obtain ⟨x,rest,rfl⟩ := List.exists_cons_of_ne_nil hne
    rw [hg₁.current_kind,hr₂.kind_eq rfl]
    rfl

end Generator
end TeenyTiny

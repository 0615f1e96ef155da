import TeenyTiny.Proofs.Expressions

/-! The rules for statements and blocks read exactly what their trees spell. -/
namespace TeenyTiny
open Text Piece Ast Passage

namespace Ast

/-- The keyword that a statement begins with. -/
def Statement.start : Statement → Keyword
  | .printText _ | .printValue _ => .print
  | .block kind _ _ => kind.start
  | .label _ => .label
  | .goto _ => .goto
  | .assign _ _ => .let_
  | .input _ => .input

theorem Statement.pieces_head (s : Statement) : ∃ ps, s.pieces = .keyword s.start :: ps := by
  cases s <;> exact ⟨_,rfl⟩

theorem Statement.start_ne_closer (s : Statement) (kind : BlockKind) : s.start ≠ kind.closer := by
  intro h
  cases s with
  | block kind' => cases kind <;> cases kind' <;> cases h
  | _ => cases kind <;> cases h

theorem Statement.pieces_last (s : Statement) : ∃ ps, s.pieces = ps ++ [.newline] := by
  cases s with
  | printText text => exact ⟨[.keyword .print,.string text],rfl⟩
  | printValue value => exact ⟨.keyword .print :: value.pieces,rfl⟩
  | block kind condition body =>
    refine ⟨.keyword kind.start :: (condition.pieces ++ .keyword kind.opener :: .newline ::
      (Block.pieces body ++ [.keyword kind.closer])),?_⟩
    simp [Statement.pieces]
  | label name => exact ⟨[.keyword .label,.ident name],rfl⟩
  | goto name => exact ⟨[.keyword .goto,.ident name],rfl⟩
  | assign name value => exact ⟨.keyword .let_ :: .ident name :: .assign :: value.pieces,rfl⟩
  | input name => exact ⟨[.keyword .input,.ident name],rfl⟩

theorem Statement.settled (s : Statement) : Settled s.pieces := by
  obtain ⟨ps,h⟩ := s.pieces_last
  rw [h]
  exact settled_concat rfl ps

theorem Block.settled (b : Block) : Settled (Block.pieces b) := by
  induction b with
  | nil => exact settled_nil
  | cons s b ih => exact s.settled.append ih

def Statement.passage (s : Statement) : Passage := ⟨s.pieces,events s.pieces,s.code⟩

def Block.passage (b : Block) : Passage :=
  ⟨Block.pieces b,events (Block.pieces b),Block.code b⟩

theorem Block.passage_cons (s : Statement) (b : Block) :
    Block.passage (s :: b) = s.passage ++ Block.passage b := by
  simp [Block.passage,Statement.passage,append_def,Block.pieces,Block.code,s.settled _]

theorem Statement.events_block (kind : BlockKind) (condition : Condition) (body : Block) :
    events (Statement.block kind condition body).pieces =
      events condition.pieces ++ events (Block.pieces body) := by
  have hs : (Piece.keyword kind.start).kind.role = .use := by cases kind <;> rfl
  have ho : (Piece.keyword kind.opener).kind.role = .use := by cases kind <;> rfl
  have hc : (Piece.keyword kind.closer).kind.role = .use := by cases kind <;> rfl
  rw [Statement.pieces,events_cons hs (by simp),settled_of_isCopied condition.isCopied,
    events_cons ho (by simp),events_cons rfl (by simp),Block.settled,
    events_cons hc (by simp),events_cons rfl (by simp)]
  simp [events,eventsAfter]

theorem Statement.events_assign (name : List Char) (value : Expression) :
    events (Statement.assign name value).pieces =
      .assign (encode name) :: events value.pieces := by
  have hv := settled_of_isCopied value.isCopied [.newline]
  simp only [events] at hv
  simp [events,Statement.pieces,eventsAfter,Kind.role,hv]

theorem Statement.events_printValue (value : Expression) :
    events (Statement.printValue value).pieces = events value.pieces := by
  rw [Statement.pieces,events_cons rfl (by simp),settled_of_isCopied value.isCopied]
  simp [events,eventsAfter]

/-! Statements in the order in which they are read, checked and written. -/

theorem Statement.passage_printText (text : List Char) : (printText text).passage =
    token (.keyword .print) ++ (write (Code.printText text) ++ token (.string text)) ++
      token .newline :=
  Passage.ext rfl rfl (by simp [passage,token,write,Statement.code])

theorem Statement.passage_printValue (value : Expression) : (printValue value).passage =
    token (.keyword .print) ++ (write Code.valueStart ++
      (copy value.pieces ++ write Code.valueEnd)) ++ token .newline := by
  refine Passage.ext ?_ ?_ ?_
  · simp [passage,token,write,copy,Statement.pieces]
  · simp [passage,token,write,copy,events_printValue]
  · simp only [passage,append_code,token,write,copy,Statement.code,Code.printValue,
      List.append_assoc,List.append_nil,List.nil_append]

theorem Statement.passage_block (kind : BlockKind) (condition : Condition) (body : Block) :
    (block kind condition body).passage = token (.keyword kind.start) ++ (write kind.code ++
      (copy condition.pieces ++ (token (.keyword kind.opener) ++ (token .newline ++
        (write Code.bodyStart ++ (Block.passage body ++
          (token (.keyword kind.closer) ++ write Code.bodyEnd))))))) ++ token .newline := by
  refine Passage.ext ?_ ?_ ?_
  · simp [passage,token,write,copy,Block.passage,Statement.pieces]
  · simp [passage,token,write,copy,Block.passage,events_block]
  · simp only [passage,append_code,token,write,copy,Block.passage,Statement.code,Code.block,
      List.append_assoc,List.append_nil,List.nil_append]

theorem Statement.passage_label (name : List Char) : (label name).passage =
    token (.keyword .label) ++ (token (.ident name) ++ (event (.label (encode name)) ++
      write (Code.label name))) ++ token .newline :=
  Passage.ext rfl rfl (by simp [passage,token,event,write,Statement.code])

theorem Statement.passage_goto (name : List Char) : (goto name).passage =
    token (.keyword .goto) ++ (token (.ident name) ++ (event (.jump (encode name)) ++
      write (Code.goto name))) ++ token .newline :=
  Passage.ext rfl rfl (by simp [passage,token,event,write,Statement.code])

theorem Statement.passage_assign (name : List Char) (value : Expression) :
    (assign name value).passage = token (.keyword .let_) ++ (token (.ident name) ++
      (token .assign ++ (event (.assign (encode name)) ++ (write (name ++ Code.equals) ++
        (copy value.pieces ++ write Code.semicolon))))) ++ token .newline := by
  refine Passage.ext ?_ ?_ ?_
  · simp [passage,token,event,write,copy,Statement.pieces]
  · simp [passage,token,event,write,copy,events_assign]
  · simp only [passage,append_code,token,event,write,copy,Statement.code,Code.assign,
      List.append_assoc,List.append_nil,List.nil_append]

theorem Statement.passage_input (name : List Char) : (input name).passage =
    token (.keyword .input) ++ (token (.ident name) ++ (event (.assign (encode name)) ++
      (write (Code.readStart ++ name ++ Code.readEnd) ++ (write (name ++ Code.zero) ++
        (write Code.skipWord ++ write Code.bodyEnd))))) ++ token .newline := by
  refine Passage.ext rfl rfl ?_
  simp only [passage,append_code,token,event,write,Statement.code,Code.input,
    List.append_assoc,List.append_nil,List.nil_append]

/-- A value begins with no string. -/
theorem Expression.pieces_head (e : Expression) :
    ∃ p ps, e.pieces = p :: ps ∧ p.kind ≠ .string := by
  obtain ⟨⟨⟨sign,primary⟩,rest⟩,rest'⟩ := e
  cases sign with
  | none => exact ⟨primary.piece,_,rfl,by cases primary <;> simp [Primary.piece]⟩
  | some sign => exact ⟨sign.piece,_,rfl,by cases sign <;> simp [Sign.piece]⟩

end Ast

namespace Generator

section Texts

theorem printText_bytes (text : List Char) :
    ("printf(\"" ++ encode text ++ "\\n\");" : Bytes) ++ [10] = encode (Code.printText text) := by
  rw [Code.printText,encode_append,encode_append,List.append_assoc]
  rfl

theorem valueStart_bytes : ("printf(\"%.2f\\n\", (float)(" : Bytes) = encode Code.valueStart := rfl

theorem valueEnd_bytes : ("));" : Bytes) ++ [10] = encode Code.valueEnd := rfl

theorem bodyStart_bytes : (")\x7b" : Bytes) ++ [10] = encode Code.bodyStart := rfl

theorem bodyEnd_bytes : ("\x7d" : Bytes) ++ [10] = encode Code.bodyEnd := rfl

theorem label_bytes (n : List Char) :
    (encode n ++ ":" : Bytes) ++ [10] = encode (Code.label n) := by
  rw [Code.label,encode_append,List.append_assoc]
  rfl

theorem goto_bytes (n : List Char) :
    ("goto " ++ encode n ++ ";" : Bytes) ++ [10] = encode (Code.goto n) := by
  rw [Code.goto,encode_append,encode_append,List.append_assoc]
  rfl

theorem assign_bytes (n : List Char) : (encode n ++ " = " : Bytes) = encode (n ++ Code.equals) := by
  rw [encode_append]
  rfl

theorem semicolon_bytes : (";" : Bytes) ++ [10] = encode Code.semicolon := rfl

theorem read_bytes (n : List Char) :
    ("if(0 == scanf(\"%f\", &" ++ encode n ++ ")) \x7b" : Bytes) ++ [10] =
      encode (Code.readStart ++ n ++ Code.readEnd) := by
  rw [encode_append,encode_append,List.append_assoc]
  rfl

theorem zero_bytes (n : List Char) : (encode n ++ " = 0;" : Bytes) ++ [10] =
    encode (n ++ Code.zero) := by
  rw [encode_append,List.append_assoc]
  rfl

theorem skipWord_bytes : ("scanf(\"%*s\");" : Bytes) ++ [10] = encode Code.skipWord := rfl

end Texts

section Rules
variable {g g' : Generator} {s s' : Scene} {fuel : Nat}

/-- A passage that becomes a statement when its line ends. -/
def IsLine (p : Passage) : Prop := ∃ st : Statement, st.passage = p ++ token .newline

theorem In.keyword (hg : g.In s) {k : Keyword} (hk : g.current.kind = .keyword k)
    (h : Generator.advance g = .ok () g') :
    ∃ s', s.Reads s' (.token (.keyword k)) ∧ g'.In s' := by
  have he : Generator.expect (Piece.keyword k).kind g = .ok g.current g' :=
    expect_ok.mpr ⟨hk,rfl,h⟩
  exact hg.expect he rfl (by simp) (by simp)

theorem In.printStatement (hg : g.In s) (hl : s.ahead.length ≤ fuel + 1)
    (hk : g.current.kind = .keyword .print) (h : printStatement fuel g = .ok () g') :
    ∃ p s', IsLine p ∧ s.Reads s' p ∧ g'.In s' := by
  obtain ⟨_,g₁,h₁,h⟩ := bind_ok.mp h
  obtain ⟨s₁,hr₁,hg₁⟩ := hg.keyword hk h₁
  have hl₁ : 1 + s₁.ahead.length ≤ s.ahead.length := hr₁.length_add_le
  rw [currentToken_bind_ok] at h
  by_cases hs : g₁.current.kind = .string
  · rw [if_pos hs] at h
    obtain ⟨_,g₂,h₂,h₃⟩ := bind_ok.mp h
    obtain ⟨s',hr₂,hg'⟩ := hg₁.write_token h₂ (printText_bytes _) h₃ (Token.piece_eq hs)
      (by simp) (by simp)
    exact ⟨_,s',⟨_,Statement.passage_printText _⟩,hr₁.trans hr₂,hg'⟩
  · rw [if_neg hs] at h
    obtain ⟨_,g₂,h₂,h⟩ := bind_ok.mp h
    obtain ⟨_,g₃,h₃,h₄⟩ := bind_ok.mp h
    obtain ⟨s₂,hr₂,hg₂⟩ := hg₁.emit valueStart_bytes h₂
    have hl₂ := hr₂.length_le
    obtain ⟨e,s₃,hr₃,hg₃,-⟩ := (recognizes_expression fuel).sound hg₂ (by omega) h₃
    obtain ⟨s',hr₄,hg'⟩ := hg₃.emitLine valueEnd_bytes h₄
    exact ⟨_,s',⟨_,Statement.passage_printValue e⟩,hr₁.trans (hr₂.trans (hr₃.trans hr₄)),hg'⟩

theorem In.exists_printText (hg : g.In s) {text : List Char} (hc : s'.Clean)
    (hr : s.Reads s' (.token (.keyword .print) ++
      (write (Code.printText text) ++ .token (.string text)))) :
    ∃ g', Generator.printStatement fuel g = .ok () g' ∧ g'.In s' := by
  obtain ⟨s₁,hr₁,hr₂⟩ := Scene.reads_append.mp hr
  obtain ⟨-,g₁,h₁,hg₁⟩ := hg.exists_token hr₁ (by simp) (hr₂.clean hc)
  have hp := hg₁.current_piece hr₂ rfl
  obtain ⟨rfl⟩ : text = g₁.current.lexeme := (congrArg Piece.lexeme hp).symm
  obtain ⟨g₂,g',h₂,h₃,hg'⟩ := hg₁.exists_write_token (printText_bytes _) hr₂ (by simp) hc
  refine ⟨g',bind_ok.mpr ⟨(),g₁,h₁,?_⟩,hg'⟩
  have hk : g₁.current.kind = .string := congrArg Piece.kind hp
  rw [currentToken_bind_ok,if_pos hk]
  exact bind_ok.mpr ⟨(),g₂,h₂,h₃⟩

theorem In.exists_printValue (hg : g.In s) {e : Expression} (hl : s.ahead.length ≤ fuel + 1)
    (hc : s'.Clean) (hk : endsExpression s'.kind)
    (hr : s.Reads s' (.token (.keyword .print) ++
      (write Code.valueStart ++ (copy e.pieces ++ write Code.valueEnd)))) :
    ∃ g', Generator.printStatement fuel g = .ok () g' ∧ g'.In s' := by
  obtain ⟨s₁,hr₁,hr⟩ := Scene.reads_append.mp hr
  obtain ⟨p,ps,hp,hs⟩ := e.pieces_head
  have hs₁ : s₁.kind = p.kind := hr.kind_eq (by simpa [write,copy] using hp)
  obtain ⟨s₂,hr₂,hr⟩ := Scene.reads_append.mp hr
  obtain ⟨s₃,hr₃,hr₄⟩ := Scene.reads_append.mp hr
  have hl₁ : 1 + s₁.ahead.length ≤ s.ahead.length := hr₁.length_add_le
  have hl₂ := hr₂.length_le
  have hk₃ : endsExpression s₃.kind := by
    obtain rfl := Scene.reads_write.mp hr₄
    exact hk
  obtain ⟨-,g₁,h₁,hg₁⟩ := hg.exists_token hr₁ (by simp)
    (hr₂.clean (hr₃.clean (hr₄.clean hc)))
  obtain ⟨g₂,h₂,hg₂⟩ := hg₁.exists_emit rfl hr₂
  obtain ⟨g₃,h₃,hg₃⟩ := (recognizes_expression fuel).complete hg₂ (by omega) hr₃ (hr₄.clean hc) hk₃
  obtain ⟨g',h₄,hg'⟩ := hg₃.exists_emitLine valueEnd_bytes hr₄
  refine ⟨g',bind_ok.mpr ⟨(),g₁,h₁,?_⟩,hg'⟩
  have hne : g₁.current.kind ≠ .string := by rw [hg₁.current_kind,hs₁]; exact hs
  rw [currentToken_bind_ok,if_neg hne]
  exact bind_ok.mpr ⟨(),g₂,h₂,bind_ok.mpr ⟨(),g₃,h₃,h₄⟩⟩

theorem In.guardedBlock (kind : BlockKind) {body : Step Unit} (hg : g.In s)
    (hl : s.ahead.length ≤ fuel + 1)
    (hb : ∀ n, fuel = n + 1 → Recognizes body n (· = .keyword kind.closer) Block.passage)
    (hk : g.current.kind = .keyword kind.start)
    (h : guardedBlock (encode kind.code) kind.opener kind.closer fuel body g = .ok () g') :
    ∃ p s', IsLine p ∧ s.Reads s' p ∧ g'.In s' := by
  obtain ⟨_,g₁,h₁,h⟩ := bind_ok.mp h
  obtain ⟨_,g₂,h₂,h⟩ := bind_ok.mp h
  obtain ⟨_,g₃,h₃,h⟩ := bind_ok.mp h
  obtain ⟨_,g₄,h₄,h⟩ := bind_ok.mp h
  obtain ⟨_,g₅,h₅,h⟩ := bind_ok.mp h
  obtain ⟨_,g₆,h₆,h⟩ := bind_ok.mp h
  obtain ⟨_,g₇,h₇,h⟩ := bind_ok.mp h
  obtain ⟨_,g₈,h₈,h₉⟩ := bind_ok.mp h
  obtain ⟨s₁,hr₁,hg₁⟩ := hg.keyword hk h₁
  have hl₁ : 1 + s₁.ahead.length ≤ s.ahead.length := hr₁.length_add_le
  obtain ⟨s₂,hr₂,hg₂⟩ := hg₁.emit rfl h₂
  have hl₂ := hr₂.length_le
  obtain ⟨c,s₃,hr₃,hg₃,-⟩ := (recognizes_comparison fuel).sound hg₂ (by omega) h₃
  have hl₃ := hr₃.length_le
  obtain ⟨s₄,hr₄,hg₄⟩ := hg₃.expect (x := Piece.keyword kind.opener) h₄ rfl (by simp) (by simp)
  have hl₄ : 1 + s₄.ahead.length ≤ s₃.ahead.length := hr₄.length_add_le
  obtain ⟨_,s₅,hr₅,hg₅,-⟩ := (recognizes_lineEnd fuel).sound hg₄ (by omega) h₅
  have hl₅ : 1 + s₅.ahead.length ≤ s₄.ahead.length := hr₅.length_add_le
  obtain ⟨s₆,hr₆,hg₆⟩ := hg₅.emitLine bodyStart_bytes h₆
  have hl₆ := hr₆.length_le
  obtain ⟨n,rfl⟩ := Nat.exists_eq_add_one_of_ne_zero (n := fuel) (by omega)
  obtain ⟨b,s₇,hr₇,hg₇,-⟩ := (hb n rfl).sound hg₆ (by omega) h₇
  obtain ⟨s₈,hr₈,hg₈⟩ := hg₇.expect (x := Piece.keyword kind.closer) h₈ rfl (by simp) (by simp)
  obtain ⟨s',hr₉,hg'⟩ := hg₈.emitLine bodyEnd_bytes h₉
  exact ⟨_,s',⟨_,Statement.passage_block kind c b⟩,hr₁.trans (hr₂.trans (hr₃.trans (hr₄.trans
    (hr₅.trans (hr₆.trans (hr₇.trans (hr₈.trans hr₉))))))),hg'⟩

theorem endsComparison_opener (kind : BlockKind) : endsComparison (.keyword kind.opener) :=
  ⟨⟨rfl,rfl⟩,rfl⟩

/-- A block does not begin with a line feed. -/
theorem kind_block_ne_newline {b : Block} (hr : s.Reads s' (Block.passage b))
    (hk : s'.kind ≠ .newline) : s.kind ≠ .newline := by
  cases b with
  | nil =>
    obtain rfl := reads_copy_nil.mp hr
    exact hk
  | cons st b =>
    obtain ⟨ps,hp⟩ := st.pieces_head
    rw [hr.kind_eq (by rw [Block.passage,Block.pieces,hp]; rfl)]
    simp

theorem In.exists_guardedBlock {kind : BlockKind} {body : Step Unit} {c : Condition} {b : Block}
    (hg : g.In s) (hl : s.ahead.length ≤ fuel + 1)
    (hb : ∀ n, fuel = n + 1 → Recognizes body n (· = .keyword kind.closer) Block.passage)
    (hc : s'.Clean) (hr : s.Reads s' (.token (.keyword kind.start) ++ (write kind.code ++
      (copy c.pieces ++ (.token (.keyword kind.opener) ++ (.token .newline ++
        (write Code.bodyStart ++ (Block.passage b ++
          (.token (.keyword kind.closer) ++ write Code.bodyEnd))))))))) :
    ∃ g', Generator.guardedBlock (encode kind.code) kind.opener kind.closer fuel body g =
      .ok () g' ∧ g'.In s' := by
  obtain ⟨s₁,hr₁,hr⟩ := Scene.reads_append.mp hr
  obtain ⟨s₂,hr₂,hr⟩ := Scene.reads_append.mp hr
  obtain ⟨s₃,hr₃,hr⟩ := Scene.reads_append.mp hr
  obtain ⟨s₄,hr₄,hr⟩ := Scene.reads_append.mp hr
  obtain ⟨s₅,hr₅,hr⟩ := Scene.reads_append.mp hr
  obtain ⟨s₆,hr₆,hr⟩ := Scene.reads_append.mp hr
  obtain ⟨s₇,hr₇,hr⟩ := Scene.reads_append.mp hr
  obtain ⟨s₈,hr₈,hr₉⟩ := Scene.reads_append.mp hr
  have hc₈ := hr₉.clean hc
  have hc₇ := hr₈.clean hc₈
  have hc₆ := hr₇.clean hc₇
  have hc₅ := hr₆.clean hc₆
  have hc₄ := hr₅.clean hc₅
  have hc₃ := hr₄.clean hc₄
  have hl₁ : 1 + s₁.ahead.length ≤ s.ahead.length := hr₁.length_add_le
  have hl₂ := hr₂.length_le
  have hl₃ := hr₃.length_le
  have hl₄ : 1 + s₄.ahead.length ≤ s₃.ahead.length := hr₄.length_add_le
  have hl₅ : 1 + s₅.ahead.length ≤ s₄.ahead.length := hr₅.length_add_le
  have hl₆ := hr₆.length_le
  have hk₃ : s₃.kind = .keyword kind.opener := hr₄.kind_eq rfl
  have hk₇ : s₇.kind = .keyword kind.closer := hr₈.kind_eq rfl
  have hk₅ : s₅.kind ≠ .newline := by
    have hk₆ := kind_block_ne_newline hr₇ (by simp [hk₇])
    obtain rfl := Scene.reads_write.mp hr₆
    exact hk₆
  obtain ⟨n,rfl⟩ := Nat.exists_eq_add_one_of_ne_zero (n := fuel) (by omega)
  obtain ⟨-,g₁,h₁,hg₁⟩ := hg.exists_token hr₁ (by simp) (hr₂.clean (hr₃.clean hc₃))
  obtain ⟨g₂,h₂,hg₂⟩ := hg₁.exists_emit rfl hr₂
  obtain ⟨g₃,h₃,hg₃⟩ := (recognizes_comparison (n + 1)).complete hg₂ (by omega) hr₃ hc₃
    (hk₃ ▸ endsComparison_opener kind)
  obtain ⟨_,g₄,h₄,hg₄⟩ := hg₃.exists_expect hr₄ (by simp) hc₄
  obtain ⟨g₅,h₅,hg₅⟩ := (recognizes_lineEnd (n + 1)).complete (t := ()) hg₄ (by omega) hr₅ hc₅ hk₅
  obtain ⟨g₆,h₆,hg₆⟩ := hg₅.exists_emitLine bodyStart_bytes hr₆
  obtain ⟨g₇,h₇,hg₇⟩ := (hb n rfl).complete hg₆ (by omega) hr₇ hc₇ hk₇
  obtain ⟨_,g₈,h₈,hg₈⟩ := hg₇.exists_expect hr₈ (by simp) hc₈
  obtain ⟨g',h₉,hg'⟩ := hg₈.exists_emitLine bodyEnd_bytes hr₉
  exact ⟨g',bind_ok.mpr ⟨(),g₁,h₁,bind_ok.mpr ⟨(),g₂,h₂,bind_ok.mpr ⟨(),g₃,h₃,
    bind_ok.mpr ⟨_,g₄,h₄,bind_ok.mpr ⟨(),g₅,h₅,bind_ok.mpr ⟨(),g₆,h₆,bind_ok.mpr ⟨(),g₇,h₇,
      bind_ok.mpr ⟨_,g₈,h₈,h₉⟩⟩⟩⟩⟩⟩⟩⟩,hg'⟩

theorem labelStatement_ok : labelStatement g = .ok () g' ↔ ∃ g₁ t g₂,
    Generator.advance g = .ok () g₁ ∧ Generator.name .label g₁ = .ok t g₂ ∧
      (g₂.symbols.declareLabel t.text t.line).1 = none ∧
      Generator.emitLine (t.text ++ ":")
        { g₂ with symbols := (g₂.symbols.declareLabel t.text t.line).2 } = .ok () g' := by
  constructor
  · intro h
    obtain ⟨_,g₁,h₁,h⟩ := bind_ok.mp h
    obtain ⟨t,g₂,h₂,h⟩ := bind_ok.mp h
    obtain ⟨_,_,hget,h⟩ := bind_ok.mp h
    obtain ⟨rfl,rfl⟩ := get_ok.mp hget
    refine ⟨g₁,t,g₂,h₁,h₂,?_⟩
    rcases hd : g₂.symbols.declareLabel t.text t.line with ⟨previous,symbols⟩
    rw [hd] at h
    cases previous with
    | some first =>
      obtain ⟨_,_,h,-⟩ := bind_ok.mp h
      exact absurd h fail_not_ok
    | none =>
      obtain ⟨_,_,hm,h⟩ := bind_ok.mp h
      obtain rfl := modify_ok.mp hm
      exact ⟨rfl,h⟩
  · rintro ⟨g₁,t,g₂,h₁,h₂,hd,h₃⟩
    refine bind_ok.mpr ⟨(),g₁,h₁,bind_ok.mpr ⟨t,g₂,h₂,bind_ok.mpr ⟨g₂,g₂,rfl,?_⟩⟩⟩
    rcases hp : g₂.symbols.declareLabel t.text t.line with ⟨previous,symbols⟩
    rw [hp] at hd h₃
    obtain rfl : previous = none := hd
    exact bind_ok.mpr ⟨(),_,rfl,h₃⟩

/-- A label is declared once. -/
theorem In.declareLabel (hg : g.In s) {n : Bytes} {line : Int}
    (hn : isReserved .label n = false) (h : (g.symbols.declareLabel n line).1 = none) :
    ∃ s', s.Reads s' (event (.label n)) ∧
      ({ g with symbols := (g.symbols.declareLabel n line).2 } : Generator).In s' := by
  have hm := hg.symbols.not_mem_of_declareLabel h
  refine ⟨_,Scene.reads_event.mpr ⟨⟨hn,hm⟩,rfl⟩,hg.window,hg.proper,?_,?_,hg.body,hg.writable⟩
  · exact (hg.symbols.declareLabel hm).2
  · rw [Symbols.names_declareLabel]
    exact hg.header

theorem In.labelStatement (hg : g.In s) (hk : g.current.kind = .keyword .label)
    (h : labelStatement g = .ok () g') : ∃ p s', IsLine p ∧ s.Reads s' p ∧ g'.In s' := by
  obtain ⟨g₁,t,g₂,h₁,h₂,hd,h₃⟩ := labelStatement_ok.mp h
  obtain ⟨s₁,hr₁,hg₁⟩ := hg.keyword hk h₁
  obtain ⟨hn,s₂,hr₂,hg₂⟩ := hg₁.name h₂
  obtain ⟨s₃,hr₃,hg₃⟩ := hg₂.declareLabel hn hd
  obtain ⟨s',hr₄,hg'⟩ := hg₃.emitLine (label_bytes _) h₃
  exact ⟨_,s',⟨_,Statement.passage_label _⟩,hr₁.trans (hr₂.trans (hr₃.trans hr₄)),hg'⟩

theorem In.exists_labelStatement (hg : g.In s) {n : List Char} (hc : s'.Clean)
    (hr : s.Reads s' (.token (.keyword .label) ++ (.token (.ident n) ++
      (event (.label (encode n)) ++ write (Code.label n))))) :
    ∃ g', Generator.labelStatement g = .ok () g' ∧ g'.In s' := by
  obtain ⟨s₁,hr₁,hr⟩ := Scene.reads_append.mp hr
  obtain ⟨s₂,hr₂,hr⟩ := Scene.reads_append.mp hr
  obtain ⟨s₃,hr₃,hr₄⟩ := Scene.reads_append.mp hr
  have hc₂ := hr₃.clean (hr₄.clean hc)
  obtain ⟨⟨hn,hm⟩,rfl⟩ := Scene.reads_event.mp hr₃
  obtain ⟨-,g₁,h₁,hg₁⟩ := hg.exists_token hr₁ (by simp) (hr₂.clean hc₂)
  obtain ⟨t,g₂,h₂,rfl,hg₂⟩ := hg₁.exists_name hr₂ hn hc₂
  have hd : (g₂.symbols.declareLabel t.text t.line).1 = none := (hg₂.symbols.declareLabel hm).1
  obtain ⟨s₃,hr₃,hg₃⟩ := hg₂.declareLabel hn hd
  obtain rfl := (Scene.reads_event.mp hr₃).2
  obtain ⟨g',h₃,hg'⟩ := hg₃.exists_emitLine (label_bytes _) hr₄
  exact ⟨g',labelStatement_ok.mpr ⟨g₁,t,g₂,h₁,h₂,hd,h₃⟩,hg'⟩

theorem In.referenceLabel (hg : g.In s) {n : Bytes} {line : Int}
    (hn : isReserved .label n = false) : ∃ s', s.Reads s' (event (.jump n)) ∧
      ({ g with symbols := g.symbols.referenceLabel n line } : Generator).In s' := by
  refine ⟨_,Scene.reads_event.mpr ⟨hn,rfl⟩,hg.window,hg.proper,hg.symbols.referenceLabel,?_,
    hg.body,hg.writable⟩
  rw [Symbols.names_referenceLabel]
  exact hg.header

theorem In.gotoStatement (hg : g.In s) (hk : g.current.kind = .keyword .goto)
    (h : gotoStatement g = .ok () g') : ∃ p s', IsLine p ∧ s.Reads s' p ∧ g'.In s' := by
  obtain ⟨_,g₁,h₁,h⟩ := bind_ok.mp h
  obtain ⟨t,g₂,h₂,h⟩ := bind_ok.mp h
  obtain ⟨_,g₃,hm,h₃⟩ := bind_ok.mp h
  obtain rfl := modify_ok.mp hm
  obtain ⟨s₁,hr₁,hg₁⟩ := hg.keyword hk h₁
  obtain ⟨hn,s₂,hr₂,hg₂⟩ := hg₁.name h₂
  obtain ⟨s₃,hr₃,hg₃⟩ := hg₂.referenceLabel hn
  obtain ⟨s',hr₄,hg'⟩ := hg₃.emitLine (goto_bytes _) h₃
  exact ⟨_,s',⟨_,Statement.passage_goto _⟩,hr₁.trans (hr₂.trans (hr₃.trans hr₄)),hg'⟩

theorem In.exists_gotoStatement (hg : g.In s) {n : List Char} (hc : s'.Clean)
    (hr : s.Reads s' (.token (.keyword .goto) ++ (.token (.ident n) ++
      (event (.jump (encode n)) ++ write (Code.goto n))))) :
    ∃ g', Generator.gotoStatement g = .ok () g' ∧ g'.In s' := by
  obtain ⟨s₁,hr₁,hr⟩ := Scene.reads_append.mp hr
  obtain ⟨s₂,hr₂,hr⟩ := Scene.reads_append.mp hr
  obtain ⟨s₃,hr₃,hr₄⟩ := Scene.reads_append.mp hr
  have hc₂ := hr₃.clean (hr₄.clean hc)
  obtain ⟨hn,rfl⟩ := Scene.reads_event.mp hr₃
  obtain ⟨-,g₁,h₁,hg₁⟩ := hg.exists_token hr₁ (by simp) (hr₂.clean hc₂)
  obtain ⟨t,g₂,h₂,rfl,hg₂⟩ := hg₁.exists_name hr₂ hn hc₂
  obtain ⟨s₃,hr₃,hg₃⟩ := hg₂.referenceLabel hn
  obtain rfl := (Scene.reads_event.mp hr₃).2
  obtain ⟨g',h₃,hg'⟩ := hg₃.exists_emitLine (goto_bytes _) hr₄
  exact ⟨g',bind_ok.mpr ⟨(),g₁,h₁,bind_ok.mpr ⟨t,g₂,h₂,bind_ok.mpr ⟨(),_,rfl,h₃⟩⟩⟩,hg'⟩

theorem In.letStatement (hg : g.In s) (hl : s.ahead.length ≤ fuel + 1)
    (hk : g.current.kind = .keyword .let_) (h : letStatement fuel g = .ok () g') :
    ∃ p s', IsLine p ∧ s.Reads s' p ∧ g'.In s' := by
  obtain ⟨_,g₁,h₁,h⟩ := bind_ok.mp h
  obtain ⟨t,g₂,h₂,h⟩ := bind_ok.mp h
  obtain ⟨_,g₃,h₃,h⟩ := bind_ok.mp h
  obtain ⟨_,g₄,h₄,h⟩ := bind_ok.mp h
  obtain ⟨_,g₅,h₅,h⟩ := bind_ok.mp h
  obtain ⟨_,g₆,h₆,h₇⟩ := bind_ok.mp h
  obtain ⟨s₁,hr₁,hg₁⟩ := hg.keyword hk h₁
  have hl₁ : 1 + s₁.ahead.length ≤ s.ahead.length := hr₁.length_add_le
  obtain ⟨hn,s₂,hr₂,hg₂⟩ := hg₁.name h₂
  obtain ⟨s₃,hr₃,hg₃⟩ := hg₂.expect (x := Piece.assign) h₃ rfl (by simp) (by simp)
  obtain ⟨s₄,hr₄,hg₄⟩ := hg₃.declare hn h₄
  obtain ⟨s₅,hr₅,hg₅⟩ := hg₄.emit (assign_bytes _) h₅
  have hl₅ := ((hr₂.trans (hr₃.trans (hr₄.trans hr₅)))).length_le
  obtain ⟨e,s₆,hr₆,hg₆,-⟩ := (recognizes_expression fuel).sound hg₅ (by omega) h₆
  obtain ⟨s',hr₇,hg'⟩ := hg₆.emitLine semicolon_bytes h₇
  exact ⟨_,s',⟨_,Statement.passage_assign _ e⟩,hr₁.trans (hr₂.trans (hr₃.trans (hr₄.trans
    (hr₅.trans (hr₆.trans hr₇))))),hg'⟩

theorem In.exists_letStatement (hg : g.In s) {n : List Char} {e : Expression}
    (hl : s.ahead.length ≤ fuel + 1) (hc : s'.Clean) (hk : endsExpression s'.kind)
    (hr : s.Reads s' (.token (.keyword .let_) ++ (.token (.ident n) ++ (.token .assign ++
      (event (.assign (encode n)) ++ (write (n ++ Code.equals) ++
        (copy e.pieces ++ write Code.semicolon))))))) :
    ∃ g', Generator.letStatement fuel g = .ok () g' ∧ g'.In s' := by
  obtain ⟨s₁,hr₁,hr⟩ := Scene.reads_append.mp hr
  obtain ⟨s₂,hr₂,hr⟩ := Scene.reads_append.mp hr
  obtain ⟨s₃,hr₃,hr⟩ := Scene.reads_append.mp hr
  obtain ⟨s₄,hr₄,hr⟩ := Scene.reads_append.mp hr
  obtain ⟨s₅,hr₅,hr⟩ := Scene.reads_append.mp hr
  obtain ⟨s₆,hr₆,hr₇⟩ := Scene.reads_append.mp hr
  have hc₃ := hr₄.clean (hr₅.clean (hr₆.clean (hr₇.clean hc)))
  have hc₂ := hr₃.clean hc₃
  have hl₁ : 1 + s₁.ahead.length ≤ s.ahead.length := hr₁.length_add_le
  have hl₅ := ((hr₂.trans (hr₃.trans (hr₄.trans hr₅)))).length_le
  have hn := (Scene.reads_event.mp hr₄).1
  have hk₆ : endsExpression s₆.kind := by
    obtain rfl := Scene.reads_write.mp hr₇
    exact hk
  obtain ⟨-,g₁,h₁,hg₁⟩ := hg.exists_token hr₁ (by simp) (hr₂.clean hc₂)
  obtain ⟨t,g₂,h₂,rfl,hg₂⟩ := hg₁.exists_name hr₂ hn hc₂
  obtain ⟨_,g₃,h₃,hg₃⟩ := hg₂.exists_expect hr₃ (by simp) hc₃
  obtain ⟨g₄,h₄,hg₄⟩ := hg₃.exists_declare hr₄
  obtain ⟨g₅,h₅,hg₅⟩ := hg₄.exists_emit (assign_bytes _) hr₅
  obtain ⟨g₆,h₆,hg₆⟩ := (recognizes_expression fuel).complete hg₅ (by omega) hr₆
    (hr₇.clean hc) hk₆
  obtain ⟨g',h₇,hg'⟩ := hg₆.exists_emitLine semicolon_bytes hr₇
  exact ⟨g',bind_ok.mpr ⟨(),g₁,h₁,bind_ok.mpr ⟨t,g₂,h₂,bind_ok.mpr ⟨_,g₃,h₃,
    bind_ok.mpr ⟨(),g₄,h₄,bind_ok.mpr ⟨(),g₅,h₅,bind_ok.mpr ⟨(),g₆,h₆,h₇⟩⟩⟩⟩⟩⟩,hg'⟩

theorem In.inputStatement (hg : g.In s) (hk : g.current.kind = .keyword .input)
    (h : inputStatement g = .ok () g') : ∃ p s', IsLine p ∧ s.Reads s' p ∧ g'.In s' := by
  obtain ⟨_,g₁,h₁,h⟩ := bind_ok.mp h
  obtain ⟨t,g₂,h₂,h⟩ := bind_ok.mp h
  obtain ⟨_,g₃,h₃,h⟩ := bind_ok.mp h
  obtain ⟨_,g₄,h₄,h⟩ := bind_ok.mp h
  obtain ⟨_,g₅,h₅,h⟩ := bind_ok.mp h
  obtain ⟨_,g₆,h₆,h₇⟩ := bind_ok.mp h
  obtain ⟨s₁,hr₁,hg₁⟩ := hg.keyword hk h₁
  obtain ⟨hn,s₂,hr₂,hg₂⟩ := hg₁.name h₂
  obtain ⟨s₃,hr₃,hg₃⟩ := hg₂.declare hn h₃
  obtain ⟨s₄,hr₄,hg₄⟩ := hg₃.emitLine (read_bytes _) h₄
  obtain ⟨s₅,hr₅,hg₅⟩ := hg₄.emitLine (zero_bytes _) h₅
  obtain ⟨s₆,hr₆,hg₆⟩ := hg₅.emitLine skipWord_bytes h₆
  obtain ⟨s',hr₇,hg'⟩ := hg₆.emitLine bodyEnd_bytes h₇
  exact ⟨_,s',⟨_,Statement.passage_input _⟩,hr₁.trans (hr₂.trans (hr₃.trans (hr₄.trans
    (hr₅.trans (hr₆.trans hr₇))))),hg'⟩

theorem In.exists_inputStatement (hg : g.In s) {n : List Char} (hc : s'.Clean)
    (hr : s.Reads s' (.token (.keyword .input) ++ (.token (.ident n) ++
      (event (.assign (encode n)) ++ (write (Code.readStart ++ n ++ Code.readEnd) ++
        (write (n ++ Code.zero) ++ (write Code.skipWord ++ write Code.bodyEnd))))))) :
    ∃ g', Generator.inputStatement g = .ok () g' ∧ g'.In s' := by
  obtain ⟨s₁,hr₁,hr⟩ := Scene.reads_append.mp hr
  obtain ⟨s₂,hr₂,hr⟩ := Scene.reads_append.mp hr
  have hc₂ := hr.clean hc
  obtain ⟨s₃,hr₃,hr⟩ := Scene.reads_append.mp hr
  obtain ⟨s₄,hr₄,hr⟩ := Scene.reads_append.mp hr
  obtain ⟨s₅,hr₅,hr⟩ := Scene.reads_append.mp hr
  obtain ⟨s₆,hr₆,hr₇⟩ := Scene.reads_append.mp hr
  have hn := (Scene.reads_event.mp hr₃).1
  obtain ⟨-,g₁,h₁,hg₁⟩ := hg.exists_token hr₁ (by simp) (hr₂.clean hc₂)
  obtain ⟨t,g₂,h₂,rfl,hg₂⟩ := hg₁.exists_name hr₂ hn hc₂
  obtain ⟨g₃,h₃,hg₃⟩ := hg₂.exists_declare hr₃
  obtain ⟨g₄,h₄,hg₄⟩ := hg₃.exists_emitLine (read_bytes _) hr₄
  obtain ⟨g₅,h₅,hg₅⟩ := hg₄.exists_emitLine (zero_bytes _) hr₅
  obtain ⟨g₆,h₆,hg₆⟩ := hg₅.exists_emitLine skipWord_bytes hr₆
  obtain ⟨g',h₇,hg'⟩ := hg₆.exists_emitLine bodyEnd_bytes hr₇
  exact ⟨g',bind_ok.mpr ⟨(),g₁,h₁,bind_ok.mpr ⟨t,g₂,h₂,bind_ok.mpr ⟨(),g₃,h₃,
    bind_ok.mpr ⟨(),g₄,h₄,bind_ok.mpr ⟨(),g₅,h₅,bind_ok.mpr ⟨(),g₆,h₆,h₇⟩⟩⟩⟩⟩⟩,hg'⟩

end Rules

/-- The rule for a statement that begins with a token of this kind. -/
def rule? (fuel : Nat) : Kind → Option (Step Unit)
  | .keyword .print => some (printStatement fuel)
  | .keyword .if_ =>
    some (guardedBlock "if(" .then_ .endif fuel (statementsUntil (.keyword .endif) fuel))
  | .keyword .while_ =>
    some (guardedBlock "while(" .repeat_ .endwhile fuel
      (statementsUntil (.keyword .endwhile) fuel))
  | .keyword .label => some labelStatement
  | .keyword .goto => some gotoStatement
  | .keyword .let_ => some (letStatement fuel)
  | .keyword .input => some inputStatement
  | _ => none

section Blocks
variable {g g' : Generator} {s s' : Scene} {fuel : Nat}

theorem statement_ok : statement (fuel + 1) g = .ok () g' ↔
    ∃ rule, rule? fuel g.current.kind = some rule ∧ ∃ g₁, rule g = .ok () g₁ ∧
      lineEnd fuel g₁ = .ok () g' := by
  rw [statement,currentToken_bind_ok]
  cases hk : g.current.kind with
  | keyword k =>
    cases k <;> simp only [rule?,then_ok,fail_not_ok,Option.some.injEq,reduceCtorEq,false_and,
      exists_false,exists_eq_left']
  | _ => simp only [rule?,then_ok,fail_not_ok,reduceCtorEq,false_and,exists_false]

theorem statementsUntil_ok {close : Kind} : statementsUntil close (fuel + 1) g = .ok () g' ↔
    (g.current.kind = close ∧ g = g') ∨ (g.current.kind ≠ close ∧ g.current.kind ≠ .eof ∧
      ∃ g₁, statement fuel g = .ok () g₁ ∧ statementsUntil close fuel g₁ = .ok () g') := by
  rw [statementsUntil,currentToken_bind_ok]
  by_cases hk : g.current.kind = close
  · simp only [ne_eq,hk,not_true_eq_false,if_false,pure_ok,true_and,false_and,or_false]
  · rw [if_pos hk]
    by_cases he : g.current.kind = .eof
    · rw [if_pos he,then_ok]
      simp only [fail_not_ok,false_and,exists_false,ne_eq,he,not_true_eq_false,and_false,
        false_or,he ▸ hk]
    · rw [if_neg he,then_ok]
      simp only [hk,he,false_and,false_or,ne_eq,not_false_eq_true,true_and]

theorem IsLine.pieces_head {p : Passage} (h : IsLine p) : ∃ k ps, p.pieces = .keyword k :: ps := by
  obtain ⟨st,hst⟩ := h
  obtain ⟨ps,hp⟩ := st.pieces_head
  have he : Piece.keyword st.start :: ps = p.pieces ++ [.newline] := by
    rw [← hp]
    exact congrArg Passage.pieces hst
  cases hq : p.pieces with
  | nil =>
    rw [hq] at he
    cases he
  | cons q qs =>
    rw [hq,List.cons_append,List.cons_eq_cons] at he
    exact ⟨st.start,qs,by rw [he.1]⟩

theorem IsLine.length_lt {p : Passage} (h : IsLine p) (hr : s.Reads s' p) :
    s'.ahead.length < s.ahead.length := by
  obtain ⟨k,ps,hp⟩ := h.pieces_head
  have hl := hr.length_add_le
  rw [hp,List.length_cons] at hl
  omega

/-- Any rule reads a statement up to its line end. -/
theorem In.rule (hg : g.In s) (hl : s.ahead.length ≤ fuel + 1)
    (hb : ∀ (kind : BlockKind) n, fuel = n + 1 → Recognizes
      (statementsUntil (.keyword kind.closer) fuel) n (· = .keyword kind.closer) Block.passage)
    {rule : Step Unit} (hrule : rule? fuel g.current.kind = some rule)
    (h : rule g = .ok () g') : ∃ p s', IsLine p ∧ s.Reads s' p ∧ g'.In s' := by
  cases hk : g.current.kind with
  | keyword k =>
    rw [hk] at hrule
    cases k with
    | print =>
      obtain rfl := Option.some.inj hrule
      exact hg.printStatement hl hk h
    | if_ =>
      obtain rfl := Option.some.inj hrule
      exact hg.guardedBlock .conditional hl (hb .conditional) hk h
    | while_ =>
      obtain rfl := Option.some.inj hrule
      exact hg.guardedBlock .loop hl (hb .loop) hk h
    | label =>
      obtain rfl := Option.some.inj hrule
      exact hg.labelStatement hk h
    | goto =>
      obtain rfl := Option.some.inj hrule
      exact hg.gotoStatement hk h
    | let_ =>
      obtain rfl := Option.some.inj hrule
      exact hg.letStatement hl hk h
    | input =>
      obtain rfl := Option.some.inj hrule
      exact hg.inputStatement hk h
    | _ => cases hrule
  | _ =>
    rw [hk] at hrule
    cases hrule

/-- The rule that a statement begins with reads it up to its line end. -/
theorem In.exists_rule (hg : g.In s) (hl : s.ahead.length ≤ fuel + 1)
    (hb : ∀ (kind : BlockKind) n, fuel = n + 1 → Recognizes
      (statementsUntil (.keyword kind.closer) fuel) n (· = .keyword kind.closer) Block.passage)
    {st : Statement} (hr : s.Reads s' st.passage) (hc : s'.Clean) :
    ∃ rule, rule? fuel (.keyword st.start) = some rule ∧
      ∃ p s₁ g₁, IsLine p ∧ s.Reads s₁ p ∧ s₁.Reads s' (.token .newline) ∧
        rule g = .ok () g₁ ∧ g₁.In s₁ := by
  cases st with
  | printText text =>
    rw [Statement.passage_printText] at hr
    obtain ⟨s₁,hr,hn⟩ := Scene.reads_append.mp hr
    obtain ⟨g₁,h,hg₁⟩ := hg.exists_printText (hn.clean hc) hr
    exact ⟨_,rfl,_,s₁,g₁,⟨_,Statement.passage_printText text⟩,hr,hn,h,hg₁⟩
  | printValue value =>
    rw [Statement.passage_printValue] at hr
    obtain ⟨s₁,hr,hn⟩ := Scene.reads_append.mp hr
    have hk : s₁.kind = .newline := hn.kind_eq rfl
    obtain ⟨g₁,h,hg₁⟩ := hg.exists_printValue hl (hn.clean hc) (hk ▸ ⟨rfl,rfl⟩) hr
    exact ⟨_,rfl,_,s₁,g₁,⟨_,Statement.passage_printValue value⟩,hr,hn,h,hg₁⟩
  | block kind condition body =>
    rw [Statement.passage_block] at hr
    obtain ⟨s₁,hr,hn⟩ := Scene.reads_append.mp hr
    obtain ⟨g₁,h,hg₁⟩ := hg.exists_guardedBlock hl (hb kind) (hn.clean hc) hr
    cases kind with
    | conditional => exact ⟨_,rfl,_,s₁,g₁,⟨_,Statement.passage_block _ condition body⟩,hr,hn,h,hg₁⟩
    | loop => exact ⟨_,rfl,_,s₁,g₁,⟨_,Statement.passage_block _ condition body⟩,hr,hn,h,hg₁⟩
  | label n =>
    rw [Statement.passage_label] at hr
    obtain ⟨s₁,hr,hn⟩ := Scene.reads_append.mp hr
    obtain ⟨g₁,h,hg₁⟩ := hg.exists_labelStatement (hn.clean hc) hr
    exact ⟨_,rfl,_,s₁,g₁,⟨_,Statement.passage_label n⟩,hr,hn,h,hg₁⟩
  | goto n =>
    rw [Statement.passage_goto] at hr
    obtain ⟨s₁,hr,hn⟩ := Scene.reads_append.mp hr
    obtain ⟨g₁,h,hg₁⟩ := hg.exists_gotoStatement (hn.clean hc) hr
    exact ⟨_,rfl,_,s₁,g₁,⟨_,Statement.passage_goto n⟩,hr,hn,h,hg₁⟩
  | assign n value =>
    rw [Statement.passage_assign] at hr
    obtain ⟨s₁,hr,hn⟩ := Scene.reads_append.mp hr
    have hk : s₁.kind = .newline := hn.kind_eq rfl
    obtain ⟨g₁,h,hg₁⟩ := hg.exists_letStatement hl (hn.clean hc) (hk ▸ ⟨rfl,rfl⟩) hr
    exact ⟨_,rfl,_,s₁,g₁,⟨_,Statement.passage_assign n value⟩,hr,hn,h,hg₁⟩
  | input n =>
    rw [Statement.passage_input] at hr
    obtain ⟨s₁,hr,hn⟩ := Scene.reads_append.mp hr
    obtain ⟨g₁,h,hg₁⟩ := hg.exists_inputStatement (hn.clean hc) hr
    exact ⟨_,rfl,_,s₁,g₁,⟨_,Statement.passage_input n⟩,hr,hn,h,hg₁⟩

theorem recognizes_statement (hb : ∀ (kind : BlockKind) n, fuel = n + 1 → Recognizes
      (statementsUntil (.keyword kind.closer) fuel) n (· = .keyword kind.closer) Block.passage) :
    Recognizes (statement (fuel + 1)) (fuel + 1) (· ≠ .newline) Statement.passage where
  sound {g g' s} hg hl h := by
    obtain ⟨rule,hrule,g₁,h₁,h₂⟩ := statement_ok.mp h
    obtain ⟨p,s₁,hp,hr₁,hg₁⟩ := hg.rule hl hb hrule h₁
    have hl₁ := hp.length_lt hr₁
    obtain ⟨_,s',hr₂,hg',hk⟩ := (recognizes_lineEnd fuel).sound hg₁ (by omega) h₂
    obtain ⟨st,hst⟩ := hp
    exact ⟨st,s',hst ▸ hr₁.trans hr₂,hg',hk⟩
  complete {g s s' st} hg hl hr hc hk := by
    obtain ⟨ps,hp⟩ := st.pieces_head
    have hs : g.current.kind = .keyword st.start := hg.current_kind.trans (hr.kind_eq hp)
    obtain ⟨rule,hrule,p,s₁,g₁,hline,hr₁,hn,h₁,hg₁⟩ := hg.exists_rule hl hb hr hc
    have hl₁ := hline.length_lt hr₁
    obtain ⟨g',h₂,hg'⟩ := (recognizes_lineEnd fuel).complete (t := ()) hg₁ (by omega) hn hc hk
    exact ⟨g',statement_ok.mpr ⟨rule,hs ▸ hrule,g₁,h₁,h₂⟩,hg'⟩

/-- What ends a sequence of statements. -/
def IsClose (close : Kind) : Prop := close = .eof ∨ ∃ kind : BlockKind, close = .keyword kind.closer

theorem IsClose.ne_start {close : Kind} (h : IsClose close) (st : Statement) :
    .keyword st.start ≠ close := by
  rcases h with rfl | ⟨kind,rfl⟩
  · simp
  · exact fun h => st.start_ne_closer kind (Kind.keyword.inj h)

theorem IsClose.ne_newline {close : Kind} (h : IsClose close) : close ≠ .newline := by
  rcases h with rfl | ⟨kind,rfl⟩ <;> simp

theorem Statement.length_lt {st : Statement} (hr : s.Reads s' st.passage) :
    s'.ahead.length < s.ahead.length := by
  obtain ⟨ps,hp⟩ := st.pieces_head
  have hl := hr.length_add_le
  rw [Statement.passage,hp,List.length_cons] at hl
  omega

theorem recognizes_statementsUntil {close : Kind} (hclose : IsClose close)
    (hs : ∀ n, fuel = n + 1 → Recognizes (statement fuel) fuel (· ≠ .newline) Statement.passage)
    (hu : ∀ n, fuel = n + 1 → Recognizes (statementsUntil close fuel) n (· = close)
      Block.passage) :
    Recognizes (statementsUntil close (fuel + 1)) fuel (· = close) Block.passage where
  sound {g g' s} hg hl h := by
    rcases statementsUntil_ok.mp h with ⟨hk,rfl⟩ | ⟨-,he,g₁,h₁,h₂⟩
    · exact ⟨[],s,reads_copy_nil.mpr rfl,hg,hg.current_kind ▸ hk⟩
    · obtain ⟨rest,ha⟩ := hg.ahead_eq (hg.current_kind ▸ he)
      obtain ⟨n,rfl⟩ := Nat.exists_eq_add_one_of_ne_zero (n := fuel) (by
        rw [ha,List.length_cons] at hl
        omega)
      obtain ⟨st,s₁,hr₁,hg₁,-⟩ := (hs n rfl).sound hg hl h₁
      -- the statement takes at least one token, and the rest has one unit of fuel less
      have hl₁ := Statement.length_lt hr₁
      obtain ⟨b,s',hr₂,hg',hk⟩ := (hu n rfl).sound hg₁ (by omega) h₂
      exact ⟨st :: b,s',Block.passage_cons st b ▸ hr₁.trans hr₂,hg',hk⟩
  complete {g s s' b} hg hl hr hc hk := by
    cases b with
    | nil =>
      obtain rfl := reads_copy_nil.mp hr
      exact ⟨g,statementsUntil_ok.mpr (.inl ⟨hg.current_kind.trans hk,rfl⟩),hg⟩
    | cons st b =>
      rw [Block.passage_cons] at hr
      obtain ⟨s₁,hr₁,hr₂⟩ := Scene.reads_append.mp hr
      obtain ⟨ps,hp⟩ := st.pieces_head
      have hst : g.current.kind = .keyword st.start := hg.current_kind.trans (hr₁.kind_eq hp)
      have hl₁ := Statement.length_lt hr₁
      obtain ⟨n,rfl⟩ := Nat.exists_eq_add_one_of_ne_zero (n := fuel) (by omega)
      obtain ⟨g₁,h₁,hg₁⟩ := (hs n rfl).complete hg hl hr₁ (hr₂.clean hc)
        (kind_block_ne_newline hr₂ (hk ▸ hclose.ne_newline))
      obtain ⟨g',h₂,hg'⟩ := (hu n rfl).complete hg₁ (by omega) hr₂ hc hk
      refine ⟨g',statementsUntil_ok.mpr (.inr ⟨?_,?_,g₁,h₁,h₂⟩),hg'⟩
      · rw [hst]
        exact hclose.ne_start st
      · simp [hst]

/-- Statements and blocks are recognized together, by induction on the fuel. -/
theorem recognizes_blocks (n : Nat) :
    Recognizes (statement (n + 1)) (n + 1) (· ≠ .newline) Statement.passage ∧
      ∀ close, IsClose close →
        Recognizes (statementsUntil close (n + 1)) n (· = close) Block.passage := by
  induction n with
  | zero =>
    exact ⟨recognizes_statement (fun _ _ h => by cases h),fun close hclose =>
      recognizes_statementsUntil hclose (fun _ h => by cases h) (fun _ h => by cases h)⟩
  | succ n ih =>
    refine ⟨recognizes_statement ?_,fun close hclose => recognizes_statementsUntil hclose ?_ ?_⟩
    · intro kind m hm
      obtain rfl := Nat.succ.inj hm
      exact ih.2 _ (.inr ⟨kind,rfl⟩)
    · intro m _
      exact ih.1
    · intro m hm
      obtain rfl := Nat.succ.inj hm
      exact ih.2 close hclose

end Blocks
end Generator
end TeenyTiny

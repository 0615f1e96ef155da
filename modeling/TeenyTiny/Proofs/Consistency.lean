import TeenyTiny.Proofs.Lines

/-! The symbol table, the header and the body agree wherever a run stops. Each goal keeps an
invariant that says what stands in the body line by line; a goal that fails changes neither the
table nor the listing. -/
namespace TeenyTiny
open Text Piece Ast Lexer

namespace Generator

/-- Where the end of the body stands: at a new line, or in a formula, where an operand has to come
or has just been written. -/
inductive Place where
  | line
  | operand (f : Formula)
  | operator (f : Formula)
  deriving DecidableEq

namespace Place

def formula? : Place → Option Formula
  | line => none
  | operand f | operator f => some f

/-- The last line, as far as it is written. -/
def text (p : Place) (ps : List Piece) : List Char :=
  match p.formula? with
  | none => []
  | some f => f.opening ++ copied ps

theorem text_line (ps : List Piece) : line.text ps = [] := rfl

theorem text_eq {p : Place} {f : Formula} (h : p.formula? = some f) (ps : List Piece) :
    p.text ps = f.opening ++ copied ps := by
  rw [text,h]

end Place

/-- A variable that is assigned has a name that it may have. -/
def Formula.Allowed (f : Formula) : Prop :=
  f.WellFormed ∧ ∀ n, f = .assigned n → isReserved .variable (encode n) = false

/-- Goals that begin at a new line and end there. -/
def Goal.isWhole : Goal → Bool
  | .print | .label | .jump | .target | .input => true
  | .close | .statement | .statements _ | .ending | .resolve => true
  | _ => false

/-- A goal that begins at one place ends at another. -/
inductive Goal.Moves : Goal → Place → Place → Prop
  | pass {kind : Kind} {p : Place} : Moves (.pass kind) p p
  | lineEnd {p : Place} : Moves .lineEnd p p
  | feeds {p : Place} : Moves .feeds p p
  | operand {f : Formula} : Moves .operand (.operand f) (.operator f)
  | unary {f : Formula} : Moves .unary (.operand f) (.operator f)
  | factors {f : Formula} : Moves .factors (.operator f) (.operator f)
  | summands {f : Formula} : Moves .summands (.operator f) (.operator f)
  | compared {f : Formula} : Moves .compared (.operator f) (.operator f)
  | comparands {f : Formula} : Moves .comparands (.operator f) (.operator f)
  | start {f : Formula} (hf : f.Allowed) : Moves (.start f) .line (.operand f)
  | finish {f : Formula} : Moves (.finish f) (.operator f) .line
  | whole {goal : Goal} (h : goal.isWhole = true) : Moves goal .line .line

/-- Goals that lead from one place to another. -/
inductive Path : Place → List Goal → Place → Prop
  | nil {p : Place} : Path p [] p
  | cons {goal : Goal} {goals : List Goal} {p q r : Place} (h : goal.Moves p q)
    (rest : Path q goals r) : Path p (goal :: goals) r

theorem Path.append {p q r : Place} {gs hs : List Goal} (h : Path p gs q) (h' : Path q hs r) :
    Path p (gs ++ hs) r := by
  induction h with
  | nil => exact h'
  | cons hm _ ih => exact .cons hm (ih h')

theorem path_expression (f : Formula) : Path (.operand f) Goal.expression (.operator f) :=
  .cons .unary (.cons .factors (.cons .summands .nil))

theorem path_formula {f : Formula} (hf : f.Allowed) : Path .line (Goal.formula f) .line := by
  cases f with
  | condition kind =>
    exact .cons (.start hf) ((path_expression _).append
      (.cons .compared (.cons .pass (.cons .lineEnd (.cons .finish .nil)))))
  | _ => exact .cons (.start hf) ((path_expression _).append (.cons .finish .nil))

theorem path_block (kind : BlockKind) : Path .line (Goal.block kind) .line :=
  (path_formula (f := .condition kind) ⟨trivial,by simp⟩).append
    (.cons (.whole rfl) (.cons .pass (.cons (.whole rfl) .nil)))

theorem path_rest {kind : Kind} {goals : List Goal} (h : Goal.rest? kind = some goals) :
    Path .line goals .line := by
  unfold Goal.rest? at h
  split at h
  · obtain rfl := Option.some.inj h
    exact .cons (.whole rfl) .nil
  · obtain rfl := Option.some.inj h
    exact path_block _
  · obtain rfl := Option.some.inj h
    exact path_block _
  · obtain rfl := Option.some.inj h
    exact .cons (.whole rfl) .nil
  · obtain rfl := Option.some.inj h
    exact .cons (.whole rfl) .nil
  · obtain rfl := Option.some.inj h
    exact .cons (.whole rfl) .nil
  · obtain rfl := Option.some.inj h
    exact .cons (.whole rfl) .nil
  · cases h

/-- What stands in the body after these events: finished lines, and in the last line the pieces of
a formula. -/
structure Wrote (es : List Event) (lines : List BodyLine) (ps : List Piece) (p : Place) : Prop where
  wellFormed : ∀ l ∈ lines, l.WellFormed
  labels : (lines.filterMap BodyLine.label?).map encode = labelled es
  jumps : ∀ n ∈ lines.filterMap BodyLine.jump?, .jump (encode n) ∈ es
  variableNames : ∀ l ∈ lines, ∀ n ∈ l.variableNames, .assign (encode n) ∈ es
  unfinished : ∀ f ∈ p.formula?, f.WellFormed ∧ Legible ps ∧
    ∀ n ∈ (BodyLine.formula f ps).variableNames, .assign (encode n) ∈ es
  due : ∀ f, p = .operand f → ∀ x ∈ ps.getLast?, x.kind.isOperand = false

section Wrote
variable {es es' : List Event} {lines : List BodyLine} {ps : List Piece} {p : Place}
  {f : Formula} {x : Piece}

/-- More assignments and jumps may follow. -/
theorem Wrote.mono (h : Wrote es lines ps p) (hs : es ⊆ es') (hl : labelled es' = labelled es) :
    Wrote es' lines ps p where
  wellFormed := h.wellFormed
  labels := h.labels.trans hl.symm
  jumps n hn := hs (h.jumps n hn)
  variableNames l hl n hn := hs (h.variableNames l hl n hn)
  unfinished f hf :=
    have ⟨hw,hp,hv⟩ := h.unfinished f hf
    ⟨hw,hp,fun n hn => hs (hv n hn)⟩
  due := h.due

/-- One more line is finished. -/
theorem Wrote.line (h : Wrote es lines ps p) (l : BodyLine) (hs : es ⊆ es') (hw : l.WellFormed)
    (hl : labelled es' = labelled es ++ l.label?.toList.map encode)
    (hj : ∀ n ∈ l.jump?, .jump (encode n) ∈ es')
    (hv : ∀ n ∈ l.variableNames, .assign (encode n) ∈ es') : Wrote es' (lines ++ [l]) [] .line where
  wellFormed k hk := by
    rcases List.mem_append.mp hk with hk | hk
    · exact h.wellFormed k hk
    · exact List.mem_singleton.mp hk ▸ hw
  labels := by
    rw [List.filterMap_append,List.map_append,h.labels,hl]
    cases hn : l.label? <;> simp [hn]
  jumps n hn := by
    rw [List.filterMap_append] at hn
    rcases List.mem_append.mp hn with hn | hn
    · exact hs (h.jumps n hn)
    · exact hj n (by simpa using hn)
  variableNames k hk n hn := by
    rcases List.mem_append.mp hk with hk | hk
    · exact hs (h.variableNames k hk n hn)
    · exact hv n (List.mem_singleton.mp hk ▸ hn)
  unfinished f hf := by cases hf
  due f hf := by cases hf

theorem Wrote.start (h : Wrote es lines ps .line) (hf : f.WellFormed)
    (hv : ∀ n ∈ (BodyLine.formula f []).variableNames, .assign (encode n) ∈ es) :
    Wrote es lines [] (.operand f) where
  wellFormed := h.wellFormed
  labels := h.labels
  jumps := h.jumps
  variableNames := h.variableNames
  unfinished f' hf' := by
    obtain rfl : f = f' := by simpa [Place.formula?] using hf'
    exact ⟨hf,⟨by simp,by simp,.nil⟩,hv⟩
  due := by simp

/-- One more piece of the formula is written. -/
theorem Wrote.piece {q : Place} (h : Wrote es lines ps p) (hp : f ∈ p.formula?)
    (hq : q.formula? = some f) (hx : x.WellFormed) (hc : x.kind.isCopied = true)
    (hj : ∀ y ∈ ps.getLast?, Apart y x) (hv : ∀ n ∈ idents [x], .assign (encode n) ∈ es)
    (hd : ∀ f, q = .operand f → x.kind.isOperand = false) :
    Wrote es lines (ps ++ [x]) q where
  wellFormed := h.wellFormed
  labels := h.labels
  jumps := h.jumps
  variableNames := h.variableNames
  unfinished f' hf' := by
    obtain rfl : f = f' := by simpa [hq] using hf'
    obtain ⟨hw,hl,hvs⟩ := h.unfinished f hp
    refine ⟨hw,hl.concat hx hc hj,?_⟩
    rw [BodyLine.variableNames_formula_append]
    exact List.forall_mem_append.mpr ⟨hvs,hv⟩
  due f' hf' := by simpa using hd f' hf'

end Wrote

/-- The invariant of a run. -/
def Holds (g : Generator) (p : Place) : Prop :=
  ∃ s lines ps, g.In s ∧ AllowedAfter [] s.events ∧ Wrote s.events lines ps p ∧
    s.body = lines.flatMap BodyLine.code ++ p.text ps

section Steps
variable {g g' : Generator} {p : Place} {f : Formula} {l : BodyLine} {x : Piece}

theorem In.write {s : Scene} (hg : g.In s) (cs : List Char) :
    (g.write cs).In { s with body := s.body ++ cs } := by
  have he : Generator.emit (encode cs) g = .ok () (g.write cs) := rfl
  obtain ⟨s',hr,hg'⟩ := hg.emit rfl he
  rwa [Scene.reads_write.mp hr] at hg'

theorem Holds.advance (h : Holds g p) (ha : Generator.advance g = .ok () g') : Holds g' p := by
  obtain ⟨s,lines,ps,hg,hal,hw,hb⟩ := h
  exact ⟨_,lines,ps,hg.next ha,hal,hw,hb⟩

theorem Holds.wellFormed (h : Holds g p) (hk : g.current.kind ≠ .eof) :
    g.current.piece.WellFormed := by
  obtain ⟨s,-,-,hg,-⟩ := h
  exact hg.wellFormed (hg.current_kind ▸ hk)

/-- A whole line is written. -/
theorem Holds.line (h : Holds g .line) (l : BodyLine) (hl : l.WellFormed) (hn : l.label? = none)
    (hj : l.jump? = none) (hv : ∀ n ∈ l.variableNames, g.symbols.isDefined (encode n) = true) :
    Holds (g.write l.code) .line := by
  obtain ⟨s,lines,ps,hg,hal,hw,hb⟩ := h
  refine ⟨_,_,[],hg.write _,hal,hw.line l (List.Subset.refl _) hl ?_ ?_ fun n hm => ?_,?_⟩
  · simp [hn]
  · simp [hj]
  · exact hg.symbols.isDefined.mp (hv n hm)
  · simp [hb,Place.text_line]

theorem Holds.start (h : Holds g .line) (hf : f.WellFormed)
    (hv : ∀ n ∈ (BodyLine.formula f []).variableNames, g.symbols.isDefined (encode n) = true) :
    Holds (g.write f.opening) (.operand f) := by
  obtain ⟨s,lines,ps,hg,hal,hw,hb⟩ := h
  refine ⟨_,lines,[],hg.write _,hal,hw.start hf fun n hm => hg.symbols.isDefined.mp (hv n hm),?_⟩
  rw [Place.text_eq rfl,hb,Place.text_line,List.append_nil,copied_nil,List.append_nil]

/-- An operator is written where it may stand: behind an operand, or as a sign. -/
theorem Holds.operator (h : Holds g p) (hp : p.formula? = some f) (hx : x.WellFormed)
    (ho : x.kind.isOperator = true) : Holds (g.write x.lexeme) (.operand f) := by
  obtain ⟨s,lines,ps,hg,hal,hw,hb⟩ := h
  refine ⟨_,lines,ps ++ [x],hg.write _,hal,?_,?_⟩
  · refine hw.piece hp rfl hx (Kind.isCopied_of_isOperator ho) (fun _ _ _ => ho) ?_ fun _ _ => ?_
    · simp [idents_operator ho]
    · rw [Bool.eq_false_iff]
      exact fun h => not_isOperator_of_isOperand h ho
  · rw [← code_of_isOperator ho,Place.text_eq rfl,hb,Place.text_eq hp]
    simp

theorem Holds.operand (h : Holds g (.operand f)) (hx : x.WellFormed)
    (ho : x.kind.isOperand = true)
    (hn : x.kind = .ident → g.symbols.isDefined (encode x.lexeme) = true) :
    Holds (g.write x.code) (.operator f) := by
  obtain ⟨s,lines,ps,hg,hal,hw,hb⟩ := h
  refine ⟨_,lines,ps ++ [x],hg.write _,hal,?_,?_⟩
  · refine hw.piece rfl rfl hx (isCopied_of_isOperand ho) (fun y hy hyo => ?_) (fun n hm => ?_)
      (by simp)
    · rw [hw.due f rfl y hy] at hyo
      cases hyo
    · obtain ⟨y,hy,rfl⟩ := List.mem_map.mp hm
      obtain ⟨hy,hk⟩ := List.mem_filter.mp hy
      obtain rfl := List.mem_singleton.mp hy
      exact hg.symbols.isDefined.mp (hn (by simpa using hk))
  · rw [Place.text_eq rfl,hb,Place.text_eq rfl]
    simp

theorem Holds.finish (h : Holds g (.operator f)) : Holds (g.write f.closing) .line := by
  obtain ⟨s,lines,ps,hg,hal,hw,hb⟩ := h
  obtain ⟨hf,hl,hv⟩ := hw.unfinished f rfl
  refine ⟨_,_,[],hg.write _,hal,
    hw.line (.formula f ps) (List.Subset.refl _) ⟨hf,hl⟩ ?_ ?_ hv,?_⟩
  · simp [BodyLine.label?]
  · simp [BodyLine.jump?]
  · simp [hb,Place.text_line,Place.text_eq (p := .operator f) rfl,BodyLine.code_formula]

theorem Holds.declared (h : Holds g p) {n : Bytes} (hn : isReserved .variable n = false) :
    Holds (g.declared n) p ∧ (g.declared n).symbols.isDefined n = true := by
  obtain ⟨s,lines,ps,hg,hal,hw,hb⟩ := h
  obtain ⟨s',hr,hg'⟩ := hg.declare hn (declare_eq g n)
  obtain ⟨ha,rfl⟩ := Scene.reads_event.mp hr
  refine ⟨⟨_,lines,ps,hg',?_,hw.mono (List.subset_append_left _ _) ?_,hb⟩,?_⟩
  · exact allowedAfter_append.mpr ⟨hal,by simpa using ha⟩
  · simp [Event.labelled?]
  · exact hg'.symbols.isDefined.mpr (by simp)

/-- A line that goes with an entry in the table is written. -/
theorem Holds.entry (h : Holds g .line) {symbols : Symbols} {e : Event}
    (hr : ∀ s, g.In s → ∃ s', s.Reads s' (.event e) ∧ In { g with symbols := symbols } s')
    (l : BodyLine) (hl : l.WellFormed) (hn : labelled [e] = l.label?.toList.map encode)
    (hj : ∀ n ∈ l.jump?, e = .jump (encode n)) (hv : l.variableNames = []) :
    Holds ({ g with symbols := symbols }.write l.code) .line := by
  obtain ⟨s,lines,ps,hg,hal,hw,hb⟩ := h
  obtain ⟨s',hs,hg'⟩ := hr s hg
  obtain ⟨ha,rfl⟩ := Scene.reads_event.mp hs
  refine ⟨_,_,[],hg'.write _,?_,hw.line l (List.subset_append_left _ _) hl ?_ ?_ ?_,?_⟩
  · exact allowedAfter_append.mpr ⟨hal,by simpa using ha⟩
  · rw [labelled_append,hn]
  · intro n hm
    simp [hj n hm]
  · simp [hv]
  · simp [hb,Place.text_line]

theorem Holds.label (h : Holds g .line) {n : List Char} {line : Int} (hn : IsWord n)
    (hr : isReserved .label (encode n) = false)
    (hd : (g.symbols.declareLabel (encode n) line).1 = none) :
    Holds ({ g with symbols := (g.symbols.declareLabel (encode n) line).2 }.write (Code.label n))
      .line := by
  have hc : (BodyLine.label n).code = Code.label n := List.append_assoc _ _ _
  rw [← hc]
  exact h.entry (fun s hg => hg.declareLabel hr hd) (.label n) hn rfl (by simp [BodyLine.jump?]) rfl

theorem Holds.jump (h : Holds g .line) {n : List Char} {line : Int} (hn : IsWord n)
    (hr : isReserved .label (encode n) = false) :
    Holds ({ g with symbols := g.symbols.referenceLabel (encode n) line }.write (Code.goto n))
      .line := by
  have hc : (BodyLine.jump n).code = Code.goto n := List.append_assoc _ _ _
  rw [← hc]
  exact h.entry (fun s hg => hg.referenceLabel hr) (.jump n) hn rfl (by simp [BodyLine.jump?]) rfl

/-- Operators are written behind operands, and what follows them is an operand. -/
theorem Holds.copying {k : Kind → Bool} {more otherwise out : List Goal} {q : Place}
    (h : Holds g p) (hp : p.formula? = some f) (hk : ∀ kind, k kind = true → kind.isOperator = true)
    (hs : Generator.copying k more otherwise g = .ok out g') (hm : Path (.operand f) more q)
    (ho : Path p otherwise q) : ∃ p', Holds g' p' ∧ Path p' out q := by
  unfold Generator.copying at hs
  split_ifs at hs with hc
  · cases hs
    have ho := hk _ hc
    have he : g.current.kind ≠ .eof := by
      intro he
      rw [he] at ho
      cases ho
    exact ⟨.operand f,h.operator hp (h.wellFormed he) ho,.cons .pass hm⟩
  · cases hs
    exact ⟨p,h,ho⟩

theorem Holds.name (h : Holds g p) {use : NameUse} {t : Token}
    (hn : Generator.name use g = .ok t g') :
    Holds g' p ∧ IsWord t.lexeme ∧ isReserved use (encode t.lexeme) = false := by
  obtain ⟨hk,rfl,hr,ha⟩ := name_ok.mp hn
  have hw := h.wellFormed (by simp [hk])
  rw [Token.piece_eq hk] at hw
  exact ⟨h.advance ha,hw.1,hr⟩

theorem Holds.step_operand {more : List Goal} (h : Holds g (.operand f))
    (hs : perform .operand g = .ok more g') : ∃ p', Holds g' p' ∧ Path p' more (.operator f) := by
  rw [perform] at hs
  cases hk : g.current.kind with
  | number =>
    rw [hk] at hs
    cases hs
    have hw := h.wellFormed (by simp [hk])
    rw [Token.piece_eq hk] at hw
    exact ⟨_,h.operand hw rfl (by simp),.cons .pass .nil⟩
  | ident =>
    rw [hk] at hs
    dsimp only at hs
    split_ifs at hs with hd
    cases hs
    have hw := h.wellFormed (by simp [hk])
    rw [Token.piece_eq hk] at hw
    exact ⟨_,h.operand hw rfl fun _ => hd,.cons .pass .nil⟩
  | _ =>
    rw [hk] at hs
    cases hs

theorem Holds.prepared (h : Holds g .line) (hf : f.Allowed) :
    Holds ((g.prepared f).write f.opening) (.operand f) := by
  cases f with
  | value => exact h.start hf.1 (by simp [BodyLine.variableNames])
  | condition kind => exact h.start hf.1 (by simp [BodyLine.variableNames])
  | assigned n =>
    obtain ⟨h,hd⟩ := h.declared (hf.2 n rfl)
    exact h.start hf.1 (by simpa [BodyLine.variableNames,Generator.prepared] using hd)

theorem Holds.step_label {more : List Goal} (h : Holds g .line)
    (hs : perform .label g = .ok more g') : ∃ p', Holds g' p' ∧ Path p' more .line := by
  obtain ⟨t,g₁,hn,hs⟩ := bind_ok.mp hs
  obtain ⟨h,hw,hr⟩ := h.name hn
  obtain ⟨hd,rfl,rfl⟩ := placeLabel_ok hs
  exact ⟨.line,h.label hw hr hd,.nil⟩

theorem Holds.step_jump {more : List Goal} (h : Holds g .line)
    (hs : perform .jump g = .ok more g') : ∃ p', Holds g' p' ∧ Path p' more .line := by
  obtain ⟨t,g₁,hn,hs⟩ := bind_ok.mp hs
  obtain ⟨h,hw,hr⟩ := h.name hn
  cases hs
  exact ⟨.line,h.jump hw hr,.nil⟩

theorem Holds.step_target {more : List Goal} (h : Holds g .line)
    (hs : perform .target g = .ok more g') : ∃ p', Holds g' p' ∧ Path p' more .line := by
  obtain ⟨t,g₁,hn,hs⟩ := bind_ok.mp hs
  obtain ⟨h,hw,hr⟩ := h.name hn
  cases hs
  refine ⟨.line,h,.cons .pass (path_formula ⟨hw,?_⟩)⟩
  rintro n ⟨⟩
  exact hr

theorem Holds.step_input {more : List Goal} (h : Holds g .line)
    (hs : perform .input g = .ok more g') : ∃ p', Holds g' p' ∧ Path p' more .line := by
  obtain ⟨t,g₁,hn,hs⟩ := bind_ok.mp hs
  obtain ⟨h,hw,hr⟩ := h.name hn
  cases hs
  obtain ⟨h,hd⟩ := h.declared hr
  have hd : ∀ n ∈ [t.lexeme], (g₁.declared t.text).symbols.isDefined (encode n) = true :=
    List.forall_mem_singleton.mpr hd
  have hread := h.line (.read t.lexeme) hw rfl rfl hd
  have hzero := hread.line (.zero t.lexeme) hw rfl rfl hd
  have hskip := hzero.line .skip trivial rfl rfl (by simp [BodyLine.variableNames])
  have hclose := hskip.line .close trivial rfl rfl (by simp [BodyLine.variableNames])
  refine ⟨.line,?_,.nil⟩
  have hr : (BodyLine.read t.lexeme).code = Code.readStart ++ t.lexeme ++ Code.readEnd :=
    List.append_assoc _ _ _
  have hz : (BodyLine.zero t.lexeme).code = t.lexeme ++ Code.zero := List.append_assoc _ _ _
  rw [hr,hz] at hclose
  exact hclose

theorem Holds.step_print {more : List Goal} (h : Holds g .line)
    (hs : perform .print g = .ok more g') : ∃ p', Holds g' p' ∧ Path p' more .line := by
  rw [perform] at hs
  split_ifs at hs with hk
  · cases hs
    have hw := h.wellFormed (by simp [hk])
    rw [Token.piece_eq hk] at hw
    have hc : (BodyLine.text g.current.lexeme).code = Code.printText g.current.lexeme :=
      List.append_assoc _ _ _
    have hl := h.line (.text g.current.lexeme) hw rfl rfl (by simp [BodyLine.variableNames])
    exact ⟨.line,hc ▸ hl,.cons .pass .nil⟩
  · cases hs
    exact ⟨.line,h,path_formula ⟨trivial,by simp⟩⟩

/-- A goal that begins at its place keeps the invariant, with the goals that it leaves at theirs. -/
theorem Holds.step {goal : Goal} {more : List Goal} {q : Place} (h : Holds g p)
    (hm : goal.Moves p q) (hs : perform goal g = .ok more g') :
    ∃ p', Holds g' p' ∧ Path p' more q := by
  cases hm with
  | pass =>
    obtain ⟨-,rfl,ha⟩ := expecting_ok hs
    exact ⟨p,h.advance ha,.nil⟩
  | lineEnd =>
    obtain ⟨-,rfl,ha⟩ := expecting_ok hs
    exact ⟨p,h.advance ha,.cons .feeds .nil⟩
  | feeds =>
    rw [perform] at hs
    split_ifs at hs
    · obtain ⟨rfl,ha⟩ := passing_ok hs
      exact ⟨p,h.advance ha,.cons .feeds .nil⟩
    · cases hs
      exact ⟨p,h,.nil⟩
  | operand => exact h.step_operand hs
  | @unary f =>
    have hu : Path (.operand f) [.operand] (.operator f) := .cons .operand .nil
    exact h.copying rfl (fun _ hk => by simp [Kind.isOperator,hk]) hs hu hu
  | factors =>
    exact h.copying rfl (fun _ hk => by simp [Kind.isOperator,hk]) hs
      (.cons .unary (.cons .factors .nil)) .nil
  | summands =>
    exact h.copying rfl (fun _ hk => by simp [Kind.isOperator,hk]) hs (path_expression _) .nil
  | compared =>
    rw [perform] at hs
    split_ifs at hs
    · cases hs
      exact ⟨_,h,.cons .comparands .nil⟩
    · cases hs
  | comparands =>
    exact h.copying rfl (fun _ hk => by simp [Kind.isOperator,hk]) hs
      ((path_expression _).append (.cons .comparands .nil)) .nil
  | start hf =>
    cases hs
    exact ⟨_,h.prepared hf,.nil⟩
  | finish =>
    cases hs
    exact ⟨.line,h.finish,.nil⟩
  | whole hw =>
    cases goal with
    | print => exact h.step_print hs
    | label => exact h.step_label hs
    | jump => exact h.step_jump hs
    | target => exact h.step_target hs
    | input => exact h.step_input hs
    | close =>
      cases hs
      exact ⟨.line,h.line .close trivial rfl rfl (by simp [BodyLine.variableNames]),.nil⟩
    | statement =>
      rw [perform] at hs
      split at hs
      · rename_i hr
        cases hs
        exact ⟨.line,h,.cons .pass ((path_rest hr).append (.cons .lineEnd .nil))⟩
      · cases hs
    | statements close =>
      rw [perform] at hs
      split_ifs at hs
      · cases hs
        exact ⟨.line,h,.nil⟩
      · cases hs
      · cases hs
        exact ⟨.line,h,.cons (.whole rfl) (.cons (.whole rfl) .nil)⟩
    | ending =>
      cases hs
      have hl := h.line .final trivial rfl rfl (by simp [BodyLine.variableNames])
      have hc := hl.line .close trivial rfl rfl (by simp [BodyLine.variableNames])
      exact ⟨.line,hc,.cons (.whole rfl) .nil⟩
    | resolve =>
      rw [perform] at hs
      split at hs
      · cases hs
        exact ⟨.line,h,.nil⟩
      · cases hs
    | _ => cases hw

end Steps

/-- How a run ends that keeps the invariant; what fails leaves the text as it was before. -/
def Ends (q : Place) : Outcome Unit → Prop
  | .ok _ g => Holds g q
  | .error _ g => ∃ g₁ p, Holds g₁ p ∧ Untouched g₁ g

theorem Does.ends {goals : List Goal} {g : Generator} {r : Outcome Unit} {p q : Place}
    (hd : Does goals g r) (h : Holds g p) (hp : Path p goals q) : Ends q r := by
  induction hd generalizing p with
  | done =>
    cases hp
    exact h
  | step hs _ ih =>
    obtain _ | ⟨hm,hrest⟩ := hp
    obtain ⟨p',h',hmore⟩ := h.step hm hs
    exact ih h' (hmore.append hrest)
  | stop hs => exact ⟨_,_,h,untouched_of_perform hs⟩

end Generator

/-- The lines of the body, as characters. -/
def Listing.bodyLines (l : Listing) : List (List Char) := C.lines (decode l.body)

/-- The table, the header and the body fit together. -/
structure Consistent (symbols : Symbols) (listing : Listing) : Prop where
  header : listing.header =
    encode prologue ++ symbols.names.flatMap Generator.declarationLine
  names_nodup : symbols.names.Nodup
  body : encode (decode listing.body) = listing.body
  variableNames : ∀ line ∈ listing.bodyLines, ∀ n ∈ C.variableNames line, encode n ∈ symbols.names
  labels : (listing.bodyLines.filterMap C.label?).map encode = symbols.labels.map LabelLine.name
  labels_nodup : (listing.bodyLines.filterMap C.label?).Nodup
  jumps : ∀ n ∈ listing.bodyLines.filterMap C.jump?, encode n ∈ symbols.gotos.map LabelLine.name
  names_allowed : ∀ n ∈ symbols.names, isReserved .variable n = false
  labels_allowed : ∀ l ∈ symbols.labels ++ symbols.gotos, isReserved .label l.name = false

namespace Generator

/-- What is seen on the last line, finished or not. -/
theorem Wrote.tail {es : List Event} {lines : List BodyLine} {ps : List Piece} {p : Place}
    (h : Wrote es lines ps p) : '\n' ∉ p.text ps ∧ C.label? (p.text ps) = none ∧
      C.jump? (p.text ps) = none ∧ ∀ n ∈ C.variableNames (p.text ps), .assign (encode n) ∈ es := by
  cases hp : p.formula? with
  | none =>
    have ht : p.text ps = [] := by rw [Place.text,hp]
    rw [ht]
    exact ⟨List.not_mem_nil,rfl,rfl,fun n hn => absurd hn List.not_mem_nil⟩
  | some f =>
    obtain ⟨hf,hl,hv⟩ := h.unfinished f hp
    have hs := C.shows_formula hf hl (.inl rfl)
    rw [List.append_nil,← Place.text_eq hp] at hs
    refine ⟨?_,hs.label,hs.jump,hs.variableNames ▸ hv⟩
    rw [Place.text_eq hp]
    exact List.not_mem_append (BodyLine.not_mem_opening hf) (hl.not_mem rfl rfl)

/-- One observer on every line, when the last line shows it nothing. -/
theorem filterMap_lines {β : Type} {lines : List BodyLine} {tail : List Char}
    {seen : List Char → Option β} {wrote : BodyLine → Option β}
    (h : ∀ l ∈ lines, seen l.content = wrote l) (ht : seen tail = none) :
    (lines.map BodyLine.content ++ [tail]).filterMap seen = lines.filterMap wrote := by
  have hone : [tail].filterMap seen = [] := by simp [ht]
  rw [List.filterMap_append,hone,List.append_nil,List.filterMap_map]
  exact List.filterMap_congr h

theorem Holds.consistent {g : Generator} {p : Place} (h : Holds g p) :
    Consistent g.symbols g.listing := by
  obtain ⟨s,lines,ps,hg,hal,hw,hb⟩ := h
  have hd : decode g.listing.body = s.body := by rw [hg.body,decode_encode]
  obtain ⟨hn,hl,hj,hv⟩ := hw.tail
  have hlines : g.listing.bodyLines = lines.map BodyLine.content ++ [p.text ps] := by
    rw [Listing.bodyLines,hd,hb,lines_eq hw.wellFormed hn]
  have hshows := fun l hm => (hw.wellFormed l hm).shows
  have hlabels : g.listing.bodyLines.filterMap C.label? = lines.filterMap BodyLine.label? := by
    rw [hlines,filterMap_lines (fun l hm => (hshows l hm).label) hl]
  have hjumps : g.listing.bodyLines.filterMap C.jump? = lines.filterMap BodyLine.jump? := by
    rw [hlines,filterMap_lines (fun l hm => (hshows l hm).jump) hj]
  have hnames : ∀ n, n ∈ g.symbols.names ↔ .assign n ∈ s.events := by
    intro n
    rw [hg.symbols.names,List.mem_eraseDups,mem_assigned]
  refine ⟨hg.header,?_,?_,?_,?_,?_,?_,?_,?_⟩
  · rw [hg.symbols.names]
    exact nodup_eraseDups _
  · rw [hd,hg.body]
  · intro line hm n hmem
    rw [hnames]
    rw [hlines,List.mem_append,List.mem_singleton] at hm
    obtain hm | rfl := hm
    · obtain ⟨l,hl,rfl⟩ := List.mem_map.mp hm
      rw [(hshows l hl).variableNames] at hmem
      exact hw.variableNames l hl n hmem
    · exact hv n hmem
  · rw [hlabels,hw.labels,hg.symbols.labels]
  · rw [hlabels]
    have hn : (labelled s.events).Nodup := by simpa using labelled_nodup hal List.nodup_nil
    rw [← hw.labels] at hn
    exact hn.of_map _
  · rw [hjumps]
    intro n hm
    rw [hg.symbols.gotos,List.mem_eraseDups,mem_jumped]
    exact hw.jumps n hm
  · intro n hm
    obtain ⟨_,ha⟩ := allowed_of_mem hal ((hnames n).mp hm)
    exact ha
  · intro l hm
    have hmem := List.mem_map_of_mem (f := LabelLine.name) hm
    rw [List.map_append,hg.symbols.labels,hg.symbols.gotos,List.mem_append,mem_labelled,
      List.mem_eraseDups,mem_jumped] at hmem
    obtain hmem | hmem := hmem
    · obtain ⟨_,ha⟩ := allowed_of_mem hal hmem
      exact ha.1
    · obtain ⟨_,ha⟩ := allowed_of_mem hal hmem
      exact ha

/-- Jumps that are all resolved have one label line each. -/
theorem count_label {symbols : Symbols} {listing : Listing} (h : Consistent symbols listing)
    (hu : symbols.unresolved = []) {n : List Char}
    (hn : n ∈ listing.bodyLines.filterMap C.jump?) :
    (listing.bodyLines.filterMap C.label?).count n = 1 := by
  refine List.count_eq_one_of_mem h.labels_nodup ?_
  obtain ⟨target,ht,hname⟩ := List.mem_map.mp (h.jumps n hn)
  have hf : symbols.findLabel? target.name ≠ none := by
    intro hnone
    have hm : target ∈ symbols.unresolved :=
      List.mem_filter.mpr ⟨ht,Option.isNone_iff_eq_none.mpr hnone⟩
    rw [hu] at hm
    exact List.not_mem_nil hm
  have hl : encode n ∈ symbols.labels.map LabelLine.name := by
    rw [← hname]
    simpa [Symbols.findLabel?] using hf
  rw [← h.labels,List.mem_map] at hl
  obtain ⟨m,hm,he⟩ := hl
  exact encode_injective he ▸ hm

/-- However far a run gets, what it has written and what its table says fit together; and when it
ends well every jump has one line to go to. -/
theorem program_consistent (src : Bytes) :
    match program { stream := TokenStream.ofChars (decode src) } with
    | .ok _ g => Consistent g.symbols g.listing ∧
        ∀ n ∈ g.listing.bodyLines.filterMap C.jump?,
          (g.listing.bodyLines.filterMap C.label?).count n = 1
    | .error _ g => g.symbols = {} ∧ g.listing = {} ∨ Consistent g.symbols g.listing := by
  obtain ⟨fault,g,hr,he⟩ | ⟨g₁,g₂,h₁,h₂,hd⟩ := program_does (.ofChars (decode src))
  · rw [hr]
    exact .inl he
  have hin := In.opened (TokenStream.proper_ofChars _) h₁ h₂
  have hopen : Holds (opened g₂) .line :=
    ⟨_,[],[],hin,trivial,⟨by simp,rfl,by simp,by simp,by simp [Place.formula?],by simp⟩,rfl⟩
  have hpath : Path .line [.feeds,.statements .eof,.ending] .line :=
    .cons .feeds (.cons (.whole rfl) (.cons (.whole rfl) .nil))
  have hends := hd.ends hopen hpath
  cases hr : program { stream := TokenStream.ofChars (decode src) } with
  | ok u g =>
    rw [hr] at hends
    obtain ⟨_,_,_,_,_,_,_,_,_,_,_,hu⟩ := program_ok.mp hr
    exact ⟨hends.consistent,fun n hn => count_label hends.consistent hu hn⟩
  | error fault g =>
    rw [hr] at hends
    obtain ⟨g₃,p,hg,hs,hl⟩ := hends
    refine .inr ?_
    rw [hs,hl]
    exact hg.consistent

end Generator
end TeenyTiny

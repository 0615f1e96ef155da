import TeenyTiny.Proofs.Encoding
import TeenyTiny.Proofs.Passage

/-! The generator in a scene: what its window shows, what its table holds and what its listing
says, and what becomes of that in every elementary step that succeeds. -/
namespace TeenyTiny
open Text Piece Ast

theorem Token.piece_eq {t : Token} {k : Kind} (hk : t.kind = k) : t.piece = ⟨k,t.lexeme⟩ :=
  congrArg (Piece.mk · t.lexeme) hk

namespace Generator

section Outcome
variable {α β : Type} {g g' : Generator}

theorem bind_ok {x : Step α} {f : α → Step β} {b : β} :
    (x >>= f) g = .ok b g' ↔ ∃ a g₁, x g = .ok a g₁ ∧ f a g₁ = .ok b g' := by
  change EStateM.bind x f g = _ ↔ _
  unfold EStateM.bind
  cases x g with
  | ok a g₁ =>
    constructor
    · intro h
      exact ⟨a,g₁,rfl,h⟩
    · rintro ⟨_,_,h,h'⟩
      cases h
      exact h'
  | error e g₁ => simp

theorem then_ok {x : Step Unit} {f : Unit → Step β} {b : β} :
    (x >>= f) g = .ok b g' ↔ ∃ g₁, x g = .ok () g₁ ∧ f () g₁ = .ok b g' := by
  rw [bind_ok]
  constructor
  · rintro ⟨_,h⟩
    exact h
  · intro h
    exact ⟨(),h⟩

theorem pure_ok {a b : α} : (pure a : Step α) g = .ok b g' ↔ a = b ∧ g = g' := by
  change EStateM.Result.ok a g = _ ↔ _
  rw [EStateM.Result.ok.injEq]

theorem fail_not_ok {b : α} {line : Int} {cause : Cause} :
    (fail line cause : Step α) g ≠ .ok b g' := by
  intro h
  cases h

theorem currentToken_ok {t : Token} : currentToken g = .ok t g' ↔ g.current = t ∧ g = g' := by
  change EStateM.Result.ok g.current g = _ ↔ _
  rw [EStateM.Result.ok.injEq]

theorem get_ok {r : Generator} : (get : Step Generator) g = .ok r g' ↔ g = r ∧ g = g' := by
  change EStateM.Result.ok g g = _ ↔ _
  rw [EStateM.Result.ok.injEq]

theorem modify_ok {f : Generator → Generator} {u : Unit} :
    (modify f : Step Unit) g = .ok u g' ↔ f g = g' := by
  change EStateM.Result.ok () (f g) = _ ↔ _
  rw [EStateM.Result.ok.injEq]
  exact and_iff_right rfl

/-- A step that looks at the current token first. -/
theorem currentToken_bind_ok {f : Token → Step β} {b : β} :
    (currentToken >>= f) g = .ok b g' ↔ f g.current g = .ok b g' := by
  rw [bind_ok]
  constructor
  · rintro ⟨t,g₁,h,h'⟩
    obtain ⟨rfl,rfl⟩ := currentToken_ok.mp h
    exact h'
  · intro h
    exact ⟨_,_,currentToken_ok.mpr ⟨rfl,rfl⟩,h⟩

theorem expect_ok {k : Kind} {t : Token} :
    expect k g = .ok t g' ↔ g.current.kind = k ∧ g.current = t ∧ advance g = .ok () g' := by
  unfold expect
  rw [currentToken_bind_ok]
  by_cases hk : g.current.kind = k
  · simp only [ne_eq,hk,not_true_eq_false,if_false,bind_ok,pure_ok,true_and]
    constructor
    · rintro ⟨_,_,h,ht,rfl⟩
      exact ⟨ht,h⟩
    · rintro ⟨ht,h⟩
      exact ⟨_,_,h,ht,rfl⟩
  · simp only [ne_eq,hk,not_false_eq_true,if_true,bind_ok,fail_not_ok,false_and,exists_false]

theorem name_ok {use : NameUse} {t : Token} : name use g = .ok t g' ↔
    g.current.kind = .ident ∧ g.current = t ∧ isReserved use t.text = false ∧
      advance g = .ok () g' := by
  unfold name
  rw [currentToken_bind_ok]
  by_cases hk : g.current.kind.isKeyword
  · have hi : g.current.kind ≠ .ident := by
      intro hi
      rw [hi] at hk
      cases hk
    simp only [hk,if_true,bind_ok,fail_not_ok,false_and,exists_false,hi]
  · simp only [hk,Bool.false_eq_true,if_false,bind_ok,expect_ok]
    constructor
    · rintro ⟨u,g₁,⟨hi,rfl,ha⟩,h⟩
      by_cases hr : isReserved use g.current.text
      · simp only [hr,if_true,bind_ok,fail_not_ok,false_and,exists_false] at h
      · simp only [hr,Bool.false_eq_true,if_false,pure_ok] at h
        obtain ⟨rfl,rfl⟩ := h
        exact ⟨hi,rfl,by simpa using hr,ha⟩
    · rintro ⟨hi,rfl,hr,ha⟩
      refine ⟨_,_,⟨hi,rfl,ha⟩,?_⟩
      simp only [hr,Bool.false_eq_true,if_false,pure_ok,and_self]

end Outcome

def declarationLine (name : Bytes) : Bytes := ("float " ++ name ++ ";" : Bytes) ++ [10]

/-- The generator stands in the scene. The window is padded with end tokens. -/
structure In (g : Generator) (s : Scene) : Prop where
  window : ∃ k, .ok g.current :: .ok g.next :: g.stream.items =
    s.ahead ++ List.replicate k (.ok g.stream.endToken)
  proper : TokenStream.Proper s.ahead
  symbols : g.symbols.Records s.events
  header : g.listing.header = encode prologue ++ g.symbols.names.flatMap declarationLine
  body : g.listing.body = encode s.body
  writable : g.listing.isFinalized = false

variable {g g' : Generator} {s s' : Scene}

theorem In.current_eq (hg : g.In s) {t : Token} {rest : List (Except Fault Token)}
    (ha : s.ahead = .ok t :: rest) : g.current = t := by
  obtain ⟨k,hk⟩ := hg.window
  rw [ha] at hk
  simpa using (List.cons_eq_cons.mp hk).1

/-- The window shows the first piece of what is about to be read. -/
theorem In.current_piece (hg : g.In s) {p : Passage} {x : Piece} {ps : List Piece}
    (hr : s.Reads s' p) (hp : p.pieces = x :: ps) : g.current.piece = x := by
  obtain ⟨t,rest,ha,ht⟩ := hr.head_eq hp
  rw [hg.current_eq ha,ht]

theorem In.current_kind (hg : g.In s) : g.current.kind = s.kind := by
  obtain ⟨k,hk⟩ := hg.window
  cases ha : s.ahead with
  | nil =>
    rw [ha,List.nil_append] at hk
    cases k with
    | zero => cases hk
    | succ k =>
      have ht : g.current = g.stream.endToken := by
        simpa using (List.cons_eq_cons.mp hk).1
      simp [Scene.kind,ha,ht,TokenStream.endToken]
  | cons item rest =>
    rw [ha] at hk
    obtain rfl := (List.cons_eq_cons.mp hk).1
    simp [Scene.kind,ha]

/-- In front of the end the current token is the next item. -/
theorem In.ahead_eq (hg : g.In s) (hk : s.kind ≠ .eof) :
    ∃ rest, s.ahead = .ok g.current :: rest := by
  cases ha : s.ahead with
  | nil => exact absurd (by simp [Scene.kind,ha]) hk
  | cons item rest =>
    cases item with
    | ok t => exact ⟨rest,by rw [hg.current_eq ha]⟩
    | error fault => exact absurd (by simp [Scene.kind,ha]) hk

/-- Moving the window passes the next item, and nothing at the end. -/
theorem window_next {ahead : List (Except Fault Token)}
    (hw : ∃ k, .ok g.current :: .ok g.next :: g.stream.items =
      ahead ++ List.replicate k (.ok g.stream.endToken))
    (h : advance g = .ok () g') : ∃ k, .ok g'.current :: .ok g'.next :: g'.stream.items =
      ahead.tail ++ List.replicate k (.ok g'.stream.endToken) := by
  have ht : ∃ k, .ok g.next :: g.stream.items =
      ahead.tail ++ List.replicate k (.ok g.stream.endToken) := by
    obtain ⟨k,hk⟩ := hw
    cases ahead with
    | nil =>
      cases k with
      | zero => cases hk
      | succ k => exact ⟨k,(List.cons_eq_cons.mp hk).2⟩
    | cons item rest => exact ⟨k,(List.cons_eq_cons.mp hk).2⟩
  obtain ⟨k,hk⟩ := ht
  unfold advance TokenStream.pull at h
  cases hi : g.stream.items with
  | nil =>
    rw [hi] at h hk
    cases h
    refine ⟨k+1,?_⟩
    rw [List.replicate_succ',← List.append_assoc]
    change .ok g.next :: .ok g.stream.endToken :: g.stream.items = _
    rw [hi,← hk]
    rfl
  | cons item items =>
    rw [hi] at h hk
    cases item with
    | ok u =>
      cases h
      exact ⟨k,hk⟩
    | error fault => cases h

theorem In.next (hg : g.In s) (h : advance g = .ok () g') :
    g'.In { s with ahead := s.ahead.tail } := by
  have hp : TokenStream.Proper s.ahead.tail := fun u hu => hg.proper u (List.mem_of_mem_tail hu)
  have hw := window_next hg.window h
  unfold Generator.advance at h
  split at h
  · cases h
    exact ⟨hw,hp,hg.symbols,hg.header,hg.body,hg.writable⟩
  · cases h

theorem In.advance (hg : g.In s) {t : Token} {rest : List (Except Fault Token)}
    (ha : s.ahead = .ok t :: rest) (h : advance g = .ok () g') :
    g'.In { s with ahead := rest } := by
  simpa only [ha,List.tail_cons] using hg.next h

theorem exists_advance_of_clean (h : ∀ fault, .error fault ∉ g.stream.items) :
    ∃ g', advance g = .ok () g' ∧ ∀ fault, .error fault ∉ g'.stream.items := by
  obtain ⟨⟨items,endLine⟩,current,next,symbols,listing⟩ := g
  match items with
  | [] => exact ⟨_,rfl,h⟩
  | .ok t :: rest => exact ⟨_,rfl,fun fault hf => h fault (List.mem_cons_of_mem _ hf)⟩
  | .error fault :: rest => exact absurd (List.mem_cons_self) (h fault)

theorem exists_advance_of_window {ahead : List (Except Fault Token)}
    (hw : ∃ k, .ok g.current :: .ok g.next :: g.stream.items =
      ahead ++ List.replicate k (.ok g.stream.endToken))
    (hc : ∀ fault, .error fault ∉ ahead) : ∃ g', advance g = .ok () g' := by
  obtain ⟨k,hk⟩ := hw
  have hi : ∀ fault, .error fault ∉ g.stream.items := by
    intro fault hf
    have hm : .error fault ∈ ahead ++ List.replicate k (.ok g.stream.endToken) := by
      rw [← hk]
      simp [hf]
    rcases List.mem_append.mp hm with hm | hm
    · exact hc fault hm
    · cases List.eq_of_mem_replicate hm
  obtain ⟨g',h,-⟩ := exists_advance_of_clean hi
  exact ⟨g',h⟩

theorem In.exists_advance (hg : g.In s) (hc : s.Clean) : ∃ g', Generator.advance g = .ok () g' :=
  exists_advance_of_window hg.window hc

section Token
variable {x : Piece}

/-- Passing the current token reads its piece. -/
theorem In.token (hg : g.In s) (h : Generator.advance g = .ok () g') (hx : g.current.piece = x)
    (hn : x.kind ≠ .newline) (he : x.kind ≠ .eof) : ∃ s', s.Reads s' (.token x) ∧ g'.In s' := by
  have hk : s.kind = x.kind := by rw [← hg.current_kind,← hx]; rfl
  obtain ⟨rest,ha⟩ := hg.ahead_eq (hk ▸ he)
  refine ⟨{ s with ahead := rest },(Scene.reads_token hn).mpr ⟨g.current,hx,?_⟩,hg.advance ha h⟩
  rw [← ha]

theorem In.exists_token (hg : g.In s) (hr : s.Reads s' (.token x)) (hn : x.kind ≠ .newline)
    (hc : s'.Clean) : g.current.piece = x ∧ ∃ g', Generator.advance g = .ok () g' ∧ g'.In s' := by
  obtain ⟨g',h⟩ := hg.exists_advance (hr.clean hc)
  obtain ⟨t,rfl,rfl⟩ := (Scene.reads_token hn).mp hr
  rw [hg.current_eq rfl]
  exact ⟨rfl,g',h,hg.advance rfl h⟩

theorem In.wellFormed (hg : g.In s) (hk : s.kind ≠ .eof) : g.current.piece.WellFormed := by
  obtain ⟨rest,ha⟩ := hg.ahead_eq hk
  exact (hg.proper g.current (by simp [ha])).1

theorem In.expect (hg : g.In s) {t : Token} (h : expect x.kind g = .ok t g')
    (hx : x.kind.spelling? = some x.lexeme) (hn : x.kind ≠ .newline) (he : x.kind ≠ .eof) :
    ∃ s', s.Reads s' (.token x) ∧ g'.In s' := by
  obtain ⟨hk,-,ha⟩ := expect_ok.mp h
  have hw := hg.wellFormed (by rw [← hg.current_kind,hk]; exact he)
  refine hg.token ha ?_ hn he
  have hp : g.current.piece.kind = x.kind := hk
  rw [hw.eq_of_spelling (hp ▸ hx),hp]

theorem In.exists_expect (hg : g.In s) (hr : s.Reads s' (.token x)) (hn : x.kind ≠ .newline)
    (hc : s'.Clean) : ∃ t g', Generator.expect x.kind g = .ok t g' ∧ g'.In s' := by
  obtain ⟨rfl,g',h,hg'⟩ := hg.exists_token hr hn hc
  exact ⟨g.current,g',expect_ok.mpr ⟨rfl,rfl,h⟩,hg'⟩

theorem In.name (hg : g.In s) {use : NameUse} {t : Token} (h : name use g = .ok t g') :
    isReserved use (encode t.lexeme) = false ∧
      ∃ s', s.Reads s' (.token (ident t.lexeme)) ∧ g'.In s' := by
  obtain ⟨hk,rfl,hr,ha⟩ := name_ok.mp h
  exact ⟨hr,hg.token ha (Token.piece_eq hk) (by simp) (by simp)⟩

theorem In.exists_name (hg : g.In s) {use : NameUse} {n : List Char}
    (hr : s.Reads s' (.token (ident n))) (hn : isReserved use (encode n) = false)
    (hc : s'.Clean) : ∃ t g', Generator.name use g = .ok t g' ∧ t.lexeme = n ∧ g'.In s' := by
  obtain ⟨hp,g',h,hg'⟩ := hg.exists_token hr (by simp) hc
  have hk : g.current.kind = .ident := congrArg Piece.kind hp
  have hl : g.current.lexeme = n := congrArg Piece.lexeme hp
  exact ⟨g.current,g',name_ok.mpr ⟨hk,rfl,by rw [Token.text,hl]; exact hn,h⟩,hl,hg'⟩

end Token

section Writing
variable {cs : List Char} {text : Bytes} {u : Unit}

theorem In.emit (hg : g.In s) (ht : text = encode cs) (h : emit text g = .ok u g') :
    ∃ s', s.Reads s' (.write cs) ∧ g'.In s' := by
  obtain rfl := modify_ok.mp h
  refine ⟨_,Scene.reads_write.mpr rfl,hg.window,hg.proper,hg.symbols,?_,?_,hg.writable⟩
  · rw [Listing.header_emit]
    exact hg.header
  · rw [Listing.body_emit,hg.body,ht,encode_append]

theorem In.exists_emit (hg : g.In s) (ht : text = encode cs) (hr : s.Reads s' (.write cs)) :
    ∃ g', Generator.emit text g = .ok () g' ∧ g'.In s' := by
  have he : Generator.emit text g = .ok () { g with listing := g.listing.emit text } := rfl
  obtain ⟨s₁,hr',hg'⟩ := hg.emit ht he
  rw [Scene.reads_write.mp hr,← Scene.reads_write.mp hr']
  exact ⟨_,he,hg'⟩

theorem emit_current (h : Generator.emit text g = .ok u g') : g'.current = g.current := by
  obtain rfl := modify_ok.mp h
  rfl

theorem In.emitLine (hg : g.In s) (ht : text ++ [10] = encode cs)
    (h : emitLine text g = .ok u g') : ∃ s', s.Reads s' (.write cs) ∧ g'.In s' :=
  hg.emit ht h

theorem In.exists_emitLine (hg : g.In s) (ht : text ++ [10] = encode cs)
    (hr : s.Reads s' (.write cs)) : ∃ g', Generator.emitLine text g = .ok () g' ∧ g'.In s' :=
  hg.exists_emit ht hr

/-- A variable is declared in the header at its first assignment. -/
theorem declare_eq (g : Generator) (n : Bytes) : declare n g = .ok () { g with
    symbols := (g.symbols.define n).2
    listing := if (g.symbols.define n).1 then g.listing.headerLine ("float " ++ n ++ ";")
      else g.listing } := by
  change (do
    modify fun g' : Generator => { g' with symbols := (g.symbols.define n).2 }
    if (g.symbols.define n).1 then headerLine ("float " ++ n ++ ";") : Step Unit) g = _
  cases (g.symbols.define n).1 <;> rfl

theorem In.declare (hg : g.In s) {n : Bytes} (hn : isReserved .variable n = false)
    (h : declare n g = .ok u g') : ∃ s', s.Reads s' (.event (.assign n)) ∧ g'.In s' := by
  refine ⟨_,Scene.reads_event.mpr ⟨hn,rfl⟩,?_⟩
  have hs : (g.symbols.define n).2.Records (s.events ++ [.assign n]) := hg.symbols.define
  rw [declare_eq] at h
  obtain rfl := (EStateM.Result.ok.inj h).2
  by_cases hd : g.symbols.isDefined n
  · have he : g.symbols.define n = (false,g.symbols) := if_pos hd
    rw [he] at hs ⊢
    exact ⟨hg.window,hg.proper,hs,hg.header,hg.body,hg.writable⟩
  · have he : g.symbols.define n =
        (true,{ g.symbols with names := g.symbols.names ++ [n] }) := if_neg hd
    rw [he] at hs ⊢
    refine ⟨hg.window,hg.proper,hs,?_,?_,hg.writable⟩
    · simp only [if_true,Listing.header_headerLine,hg.header,List.flatMap_append,
        List.flatMap_singleton,List.append_assoc,declarationLine]
    · simp only [if_true,Listing.body_headerLine,hg.body]

theorem In.exists_declare (hg : g.In s) {n : Bytes} (hr : s.Reads s' (.event (.assign n))) :
    ∃ g', Generator.declare n g = .ok () g' ∧ g'.In s' := by
  obtain ⟨hn,rfl⟩ := Scene.reads_event.mp hr
  obtain ⟨s₁,hr',hg'⟩ := hg.declare hn (declare_eq g n)
  rw [(Scene.reads_event.mp hr').2] at hg'
  exact ⟨_,declare_eq g n,hg'⟩

end Writing
end Generator
end TeenyTiny

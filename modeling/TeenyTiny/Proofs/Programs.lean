import Mathlib.Data.List.Induction
import TeenyTiny.Compile
import TeenyTiny.Proofs.Statements

/-! A whole run of the compiler. A source gives a text exactly when its tokens spell a block in
which names are used as they have to be, and the text is the translation of that block. -/
namespace TeenyTiny
open Text Piece Ast Passage

/-- The tokens of a block, with line feeds repeated and some more before the first statement. -/
def Spells (us : List Token) (b : Block) : Prop :=
  ∃ n qs, us.map Token.piece = List.replicate n newline ++ qs ∧ Spread (Block.pieces b) qs

namespace Ast

theorem assigned_events_of_isCopied {ps : List Piece} (h : ∀ p ∈ ps, p.kind.isCopied) :
    assigned (events ps) = [] := by
  induction ps with
  | nil => rfl
  | cons p ps ih =>
    have hp := role_of_isCopied (h p (by simp))
    have ht := ih (fun q hq => h q (by simp [hq]))
    simp only [events] at ht
    simp only [events,eventsAfter,hp]
    split
    · exact ht
    · exact ht

mutual

theorem Statement.assigned_events (s : Statement) :
    assigned (events s.pieces) = s.targets.map encode := by
  cases s with
  | printText text => rfl
  | printValue value =>
    rw [Statement.events_printValue,assigned_events_of_isCopied value.isCopied]
    rfl
  | block kind condition body =>
    rw [Statement.events_block,assigned_append,assigned_events_of_isCopied condition.isCopied,
      List.nil_append,Block.assigned_events body]
    rfl
  | label n => rfl
  | goto n => rfl
  | assign n value =>
    rw [Statement.events_assign,← List.singleton_append,assigned_append,
      assigned_events_of_isCopied value.isCopied]
    rfl
  | input n => rfl

theorem Block.assigned_events (b : List Statement) :
    assigned (events (Block.pieces b)) = (Block.targets b).map encode := by
  cases b with
  | nil => rfl
  | cons s b =>
    rw [Block.pieces,s.settled,assigned_append,Statement.assigned_events s,
      Block.assigned_events b,Block.targets,List.map_append]

end

theorem eraseDups_map_encode (ns : List (List Char)) :
    (ns.map encode).eraseDups = ns.eraseDups.map encode := by
  induction ns using List.reverseRecOn with
  | nil => rfl
  | append_singleton ns n ih =>
    rw [List.map_append,List.map_singleton]
    by_cases hn : n ∈ ns
    · rw [eraseDups_concat_of_mem hn,eraseDups_concat_of_mem (List.mem_map_of_mem hn),ih]
    · have hn' : encode n ∉ ns.map encode := by simpa using hn
      rw [eraseDups_concat_of_not_mem hn,eraseDups_concat_of_not_mem hn',ih,List.map_append,
        List.map_singleton]

theorem declarationLine_encode (n : List Char) :
    Generator.declarationLine (encode n) = encode (declaration n) := by
  unfold declaration
  rw [encode_append,encode_append]
  exact List.append_assoc _ _ _

/-- The header and the body make the translation. -/
theorem Block.translation_bytes (b : Block) : encode prologue ++
    ((assigned (events (Block.pieces b))).eraseDups.flatMap Generator.declarationLine) ++
      encode (Block.code b ++ epilogue) = encode b.translation := by
  have hd : ∀ ns : List (List Char), (ns.map encode).flatMap Generator.declarationLine =
      encode (ns.flatMap declaration) := by
    intro ns
    induction ns with
    | nil => rfl
    | cons n ns ih =>
      rw [List.map_cons,List.flatMap_cons,List.flatMap_cons,encode_append,ih,
        declarationLine_encode]
  rw [Block.assigned_events,eraseDups_map_encode,hd,Block.translation,encode_append,
    encode_append,encode_append,encode_append,List.append_assoc,List.append_assoc,
    List.append_assoc]

end Ast

namespace Generator
variable {stream : TokenStream} {g g' : Generator}

theorem In.length_le {s : Scene} (hg : g.In s) : s.ahead.length ≤ g.stream.items.length + 2 := by
  obtain ⟨k,hk⟩ := hg.window
  have hl := congrArg List.length hk
  simp only [List.length_cons,List.length_append,List.length_replicate] at hl
  omega

/-- Two steps fill the window. -/
theorem window_of_advance {g₁ : Generator} (h₁ : advance { stream := stream } = .ok () g₁)
    (h₂ : advance g₁ = .ok () g) : (∃ k, .ok g.current :: .ok g.next :: g.stream.items =
      stream.items ++ List.replicate k (.ok g.stream.endToken)) ∧
      g.symbols = {} ∧ g.listing = {} := by
  obtain ⟨items,endLine⟩ := stream
  unfold advance TokenStream.pull at h₁ h₂
  match items with
  | [] =>
    cases h₁
    cases h₂
    exact ⟨⟨2,rfl⟩,rfl,rfl⟩
  | [.ok t] =>
    cases h₁
    cases h₂
    exact ⟨⟨1,rfl⟩,rfl,rfl⟩
  | .ok t :: .ok u :: rest =>
    cases h₁
    cases h₂
    exact ⟨⟨0,by simp⟩,rfl,rfl⟩
  | .error _ :: _ => cases h₁
  | .ok t :: .error _ :: _ =>
    cases h₁
    cases h₂

/-- The first two lines are written. -/
def opened (g : Generator) : Generator :=
  { g with listing :=
    (g.listing.headerLine "#include <stdio.h>").headerLine "int main(void)\x7b" }

theorem program_ok : program { stream := stream } = .ok () g' ↔ ∃ g₁ g₂ g₃ g₄ g₅,
    advance { stream := stream } = .ok () g₁ ∧ advance g₁ = .ok () g₂ ∧
      repeatWhile (· = .newline) advance (g₂.stream.items.length + 3) (opened g₂) = .ok () g₃ ∧
      statementsUntil .eof (g₂.stream.items.length + 3) g₃ = .ok () g₄ ∧
      emitLine "return 0;" g₄ = .ok () g₅ ∧ emitLine "\x7d" g₅ = .ok () g' ∧
      g'.symbols.unresolved = [] := by
  constructor
  · intro h
    obtain ⟨_,g₁,h₁,h⟩ := bind_ok.mp h
    obtain ⟨_,g₂,h₂,h⟩ := bind_ok.mp h
    obtain ⟨_,_,hm,h⟩ := bind_ok.mp h
    obtain rfl := modify_ok.mp hm
    obtain ⟨_,_,hm,h⟩ := bind_ok.mp h
    obtain rfl := modify_ok.mp hm
    obtain ⟨_,_,hget,h⟩ := bind_ok.mp h
    obtain ⟨rfl,rfl⟩ := get_ok.mp hget
    obtain ⟨_,g₃,h₃,h⟩ := bind_ok.mp h
    obtain ⟨_,g₄,h₄,h⟩ := bind_ok.mp h
    obtain ⟨_,g₅,h₅,h⟩ := bind_ok.mp h
    obtain ⟨_,g₆,h₆,h⟩ := bind_ok.mp h
    obtain ⟨_,_,hget,h⟩ := bind_ok.mp h
    obtain ⟨rfl,rfl⟩ := get_ok.mp hget
    cases hu : g₆.symbols.unresolved with
    | nil =>
      rw [hu] at h
      obtain rfl := (pure_ok.mp h).2
      exact ⟨g₁,g₂,g₃,g₄,g₅,h₁,h₂,h₃,h₄,h₅,h₆,hu⟩
    | cons target rest =>
      rw [hu] at h
      exact absurd h fail_not_ok
  · rintro ⟨g₁,g₂,g₃,g₄,g₅,h₁,h₂,h₃,h₄,h₅,h₆,hu⟩
    refine bind_ok.mpr ⟨(),g₁,h₁,bind_ok.mpr ⟨(),g₂,h₂,bind_ok.mpr ⟨(),_,rfl,
      bind_ok.mpr ⟨(),opened g₂,rfl,bind_ok.mpr ⟨_,_,rfl,bind_ok.mpr ⟨(),g₃,h₃,
        bind_ok.mpr ⟨(),g₄,h₄,bind_ok.mpr ⟨(),g₅,h₅,bind_ok.mpr ⟨(),g',h₆,
          bind_ok.mpr ⟨g',g',rfl,?_⟩⟩⟩⟩⟩⟩⟩⟩⟩⟩
    rw [hu]
    rfl

theorem In.opened {g₁ : Generator} (hp : TokenStream.Proper stream.items)
    (h₁ : Generator.advance { stream := stream } = .ok () g₁)
    (h₂ : Generator.advance g₁ = .ok () g) : (opened g).In ⟨stream.items,[],[]⟩ := by
  obtain ⟨hw,hs,hl⟩ := window_of_advance h₁ h₂
  refine ⟨hw,hp,?_,?_,?_,?_⟩
  · rw [Generator.opened,hs]
    exact Symbols.records_empty
  · rw [Generator.opened,hs,hl]
    rfl
  · rw [Generator.opened,hl]
    rfl
  · rw [Generator.opened,hl]
    rfl

theorem In.ahead_nil {s : Scene} (hg : g.In s) (hk : s.kind = .eof) : s.ahead = [] := by
  cases ha : s.ahead with
  | nil => rfl
  | cons item rest =>
    cases item with
    | ok t =>
      have ht : s.kind = t.kind := by simp [Scene.kind,ha]
      exact absurd (ht.symm.trans hk) (hg.proper t (by simp [ha])).2
    | error fault =>
      obtain ⟨k,hw⟩ := hg.window
      rw [ha] at hw
      cases hw

theorem epilogue_bytes : ("return 0;" : Bytes) ++ [10] = encode "return 0;\n".toList := rfl

/-- Behind the last line the listing holds the translation. -/
theorem In.code_eq {s : Scene} {b : Block} (hg : g.In s) (he : s.events = events (Block.pieces b))
    (hb : s.body = Block.code b ++ epilogue) : g.listing.code = encode b.translation := by
  rw [← Block.translation_bytes,Listing.code,hg.header,hg.body,hg.symbols.names,he,hb]

/-- A program that is accepted spells a block, and its text is the translation of the block. -/
theorem program_sound (hp : TokenStream.Proper stream.items)
    (h : program { stream := stream } = .ok () g') :
    g'.listing.isFinalized = false ∧ ∃ us b, stream.items = us.map .ok ∧ Spells us b ∧
      WellNamed (events (Block.pieces b)) ∧ g'.symbols.Records (events (Block.pieces b)) ∧
      g'.listing.code = encode b.translation := by
  obtain ⟨g₁,g₂,g₃,g₄,g₅,h₁,h₂,h₃,h₄,h₅,h₆,hu⟩ := program_ok.mp h
  have hg₂ := In.opened hp h₁ h₂
  -- the fuel is taken from the stream when two tokens are in the window already
  have hl : stream.items.length ≤ g₂.stream.items.length + 2 := hg₂.length_le
  obtain ⟨ts,rest,ha,hts,hg₃,-⟩ := hg₂.newlines (hl.trans (Nat.le_succ _)) h₃
  have ha : stream.items = ts.map .ok ++ rest := ha
  have hl₃ : rest.length ≤ g₂.stream.items.length + 2 := by
    rw [ha,List.length_append] at hl
    omega
  obtain ⟨b,s₄,hr₄,hg₄,hk⟩ := ((recognizes_blocks _).2 .eof (.inl rfl)).sound hg₃ hl₃ h₄
  obtain ⟨s₅,hr₅,hg₅⟩ := hg₄.emitLine epilogue_bytes h₅
  obtain ⟨s₆,hr₆,hg₆⟩ := hg₅.emitLine bodyEnd_bytes h₆
  obtain rfl := Scene.reads_write.mp hr₅
  obtain rfl := Scene.reads_write.mp hr₆
  obtain ⟨⟨vs,hv,hs⟩,hal,he,hb⟩ := hr₄
  have he : s₄.events = events (Block.pieces b) := he
  have hb : s₄.body = Block.code b := hb
  -- the statements end at the end token, so nothing is left behind them
  have hv : rest = vs.map .ok := by simpa [hg₄.ahead_nil hk] using hv
  refine ⟨hg₆.writable,ts ++ vs,b,?_,⟨ts.length,vs.map Token.piece,?_,hs⟩,?_,?_,?_⟩
  · rw [ha,hv,List.map_append]
  · rw [List.map_append,List.append_cancel_right_eq,List.eq_replicate_iff]
    refine ⟨by simp,fun x hx => ?_⟩
    obtain ⟨t,ht,rfl⟩ := List.mem_map.mp hx
    exact hts t ht
  · rw [wellNamed_iff,← he]
    exact ⟨he ▸ hal,hg₆.symbols.unresolved.mp hu⟩
  · rw [← he]
    exact hg₆.symbols
  · exact hg₆.code_eq he (by rw [hb,List.append_assoc]; rfl)

theorem program_complete {us : List Token} {b : Block} (hp : TokenStream.Proper stream.items)
    (hi : stream.items = us.map .ok) (hs : Spells us b)
    (hn : WellNamed (events (Block.pieces b))) :
    ∃ g', program { stream := stream } = .ok () g' ∧ g'.listing.isFinalized = false ∧
      g'.symbols.Records (events (Block.pieces b)) ∧
      g'.listing.code = encode b.translation := by
  have hclean : ∀ fault, .error fault ∉ stream.items := by simp [hi]
  obtain ⟨g₁,h₁,hc₁⟩ := exists_advance_of_clean (g := { stream := stream }) hclean
  obtain ⟨g₂,h₂,-⟩ := exists_advance_of_clean hc₁
  have hg₂ := In.opened hp h₁ h₂
  have hl : stream.items.length ≤ g₂.stream.items.length + 2 := hg₂.length_le
  obtain ⟨n,qs,hq,hs⟩ := hs
  obtain ⟨ts,vs,rfl,hts,rfl⟩ := List.map_eq_append_iff.mp hq
  obtain ⟨hal,hj⟩ := wellNamed_iff.mp hn
  have hr : Scene.Reads ⟨vs.map .ok,[],[]⟩ ⟨[],events (Block.pieces b),Block.code b⟩
      (Block.passage b) := ⟨⟨vs,by simp,hs⟩,hal,rfl,rfl⟩
  rw [hi,List.length_map,List.length_append] at hl
  have hnew : ∀ t ∈ ts, t.piece = newline := fun t ht =>
    List.eq_of_mem_replicate (hts ▸ List.mem_map_of_mem ht)
  obtain ⟨g₃,h₃,hg₃⟩ := hg₂.exists_newlines (n := g₂.stream.items.length + 3)
    (hi.trans List.map_append) hnew (kind_block_ne_newline hr (by simp [Scene.kind]))
    (by intro fault; simp) (by omega)
  have hl₃ : (vs.map Except.ok : List (Except Fault Token)).length ≤
      g₂.stream.items.length + 2 := by
    rw [List.length_map]
    omega
  obtain ⟨g₄,h₄,hg₄⟩ := ((recognizes_blocks _).2 .eof (.inl rfl)).complete hg₃ hl₃ hr
    (by intro fault; simp) rfl
  obtain ⟨g₅,h₅,hg₅⟩ := hg₄.exists_emitLine epilogue_bytes (Scene.reads_write.mpr rfl)
  obtain ⟨g',h₆,hg'⟩ := hg₅.exists_emitLine bodyEnd_bytes (Scene.reads_write.mpr rfl)
  refine ⟨g',program_ok.mpr ⟨g₁,g₂,g₃,g₄,g₅,h₁,h₂,h₃,h₄,h₅,h₆,?_⟩,hg'.writable,hg'.symbols,?_⟩
  · exact hg'.symbols.unresolved.mpr hj
  · exact hg'.code_eq rfl (List.append_assoc _ _ _)

end Generator

/-- The stream of tokens that a source is compiled from. -/
def streamOf (src : Bytes) : TokenStream := .ofChars (decode (preprocess src))

theorem compileText_ok {src text : Bytes} : (compileText src).2 = .ok text ↔
    ∃ g, Generator.program { stream := streamOf src } = .ok () g ∧
      g.listing.isFinalized = false ∧ g.listing.code = text := by
  unfold compileText compileToBlock compile streamOf
  dsimp only
  cases h : Generator.program { stream := .ofChars (decode (preprocess src)) } with
  | error fault g =>
    simp only [reduceCtorEq,false_and,exists_false,iff_false]
    intro h
    cases h
  | ok u g =>
    simp only [EStateM.Result.ok.injEq,true_and,exists_eq_left']
    unfold Listing.finalize
    cases hf : g.listing.isFinalized with
    | true =>
      constructor
      · intro h
        cases h
      · rintro ⟨h,-⟩
        cases h
    | false =>
      rw [if_neg (by simp)]
      change Except.ok (ByteArray.empty ++ g.listing.block).data.toList = .ok text ↔ _
      simp

theorem compileText_symbols {src : Bytes} {u : Unit} {g : Generator}
    (h : Generator.program { stream := streamOf src } = .ok u g) :
    (compileText src).1 = g.symbols := by
  unfold streamOf at h
  unfold compileText compileToBlock compile Listing.finalize
  dsimp only
  rw [h]
  dsimp only
  cases g.listing.isFinalized <;> rfl

theorem compileText_of_error {src : Bytes} {fault : Fault} {g : Generator}
    (h : Generator.program { stream := streamOf src } = .error fault g) : compileText src =
      (g.symbols,.error (.diagnostic (fault.explain (decode (preprocess src))))) := by
  unfold streamOf at h
  unfold compileText compileToBlock compile
  dsimp only
  rw [h]
  rfl

theorem ok_of_toOption {ε α : Type} {r : Except ε α} {a : α} (h : r.toOption = some a) :
    r = .ok a := by
  cases r <;> simp_all [Except.toOption]

/-- The diagnostic of a compilation that has one. -/
def diagnostic? {ε α : Type} : Except (CompileError ε) α → Option Diagnostic
  | .error (.diagnostic d) => some d
  | _ => none

theorem error_of_diagnostic? {ε α : Type} {r : Except (CompileError ε) α} {d : Diagnostic}
    (h : diagnostic? r = some d) : r = .error (.diagnostic d) := by
  unfold diagnostic? at h
  split at h <;> cases h
  rfl

/-- What is accepted spells a block. The table has the names of the block, and the text is its
translation. -/
theorem compileText_sound {src text : Bytes} (h : (compileText src).2 = .ok text) :
    ∃ us b, (streamOf src).items = us.map .ok ∧ Spells us b ∧
      WellNamed (events (Block.pieces b)) ∧
      (compileText src).1.Records (events (Block.pieces b)) ∧ text = encode b.translation := by
  obtain ⟨g,hg,-,rfl⟩ := compileText_ok.mp h
  obtain ⟨-,us,b,hi,hs,hn,hr,ht⟩ := Generator.program_sound (TokenStream.proper_ofChars _) hg
  rw [compileText_symbols hg]
  exact ⟨us,b,hi,hs,hn,hr,ht⟩

theorem compileText_complete {src : Bytes} {us : List Token} {b : Block}
    (hi : (streamOf src).items = us.map .ok) (hs : Spells us b)
    (hn : WellNamed (events (Block.pieces b))) :
    (compileText src).1.Records (events (Block.pieces b)) ∧
      (compileText src).2 = .ok (encode b.translation) := by
  obtain ⟨g,hg,hw,hr,ht⟩ := Generator.program_complete (TokenStream.proper_ofChars _) hi hs hn
  rw [compileText_symbols hg]
  exact ⟨hr,compileText_ok.mpr ⟨g,hg,hw,ht⟩⟩

/-- What is accepted, and what it is translated to. -/
theorem compileText_ok_iff {src text : Bytes} : (compileText src).2 = .ok text ↔
    ∃ us b, (streamOf src).items = us.map .ok ∧ Spells us b ∧
      WellNamed (events (Block.pieces b)) ∧ text = encode b.translation := by
  constructor
  · intro h
    obtain ⟨us,b,hi,hs,hn,-,ht⟩ := compileText_sound h
    exact ⟨us,b,hi,hs,hn,ht⟩
  · rintro ⟨us,b,hi,hs,hn,rfl⟩
    exact (compileText_complete hi hs hn).2

/-- A diagnostic is a fault of the generator with its line of the source. -/
theorem compileText_error_iff {src : Bytes} {d : Diagnostic} :
    (compileText src).2 = .error (.diagnostic d) ↔
      ∃ fault g, Generator.program { stream := streamOf src } = .error fault g ∧
        d = fault.explain (decode (preprocess src)) := by
  constructor
  · intro h
    cases hg : Generator.program { stream := streamOf src } with
    | ok u g =>
      obtain ⟨hf,-⟩ := Generator.program_sound (TokenStream.proper_ofChars _) hg
      rw [compileText_ok.mpr ⟨g,hg,hf,rfl⟩] at h
      cases h
    | error fault g =>
      rw [compileText_of_error hg] at h
      cases h
      exact ⟨fault,g,rfl,rfl⟩
  · rintro ⟨fault,g,hg,rfl⟩
    rw [compileText_of_error hg]

end TeenyTiny

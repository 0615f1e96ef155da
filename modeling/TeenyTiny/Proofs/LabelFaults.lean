import TeenyTiny.Proofs.Acceptance
import TeenyTiny.Proofs.Prefixes
import TeenyTiny.Proofs.Quoting
import TeenyTiny.Proofs.Snippets

/-! Faults of labels. When nothing else is wrong with a program, the first label that is declared
for the second time is at fault; if there is none, the first jump to a label that is declared
nowhere; and if there is none either, the program is accepted. -/
namespace TeenyTiny
open Text Grammar

/-- The event that a call stands for. -/
def Symbols.Call.event : Symbols.Call → Event
  | define name => .assign name
  | lookup name => .use name
  | declareLabel name _ => .label name
  | referenceLabel name _ => .jump name

theorem Event.event_call (e : Event) (line : Int) : (e.call line).event = e := by
  cases e <;> rfl

/-- The names of a program are used alike whether lines are looked at or not. -/
theorem eventsAfter_eq (role : Bytes → Event) (ts : List Token) :
    eventsAfter role (ts.map Token.piece) = (callsAfter role ts).map Symbols.Call.event := by
  induction ts generalizing role with
  | nil => rfl
  | cons t ts ih =>
    have hk : t.piece.kind = t.kind := rfl
    rw [List.map_cons,eventsAfter,callsAfter,List.map_append,← ih,hk]
    split_ifs
    · simp only [List.map_singleton,Event.event_call]
      rfl
    · rfl

theorem events_eq (ts : List Token) :
    events (ts.map Token.piece) = (calls ts).map Symbols.Call.event := eventsAfter_eq .use ts

/-- Names that are picked from the events are picked from the calls. -/
theorem filterMap_events {f : Event → Option Bytes} {k : Symbols.Call → Option Bytes}
    (hf : ∀ c, f c.event = k c) (ts : List Token) :
    (events (ts.map Token.piece)).filterMap f = (calls ts).filterMap k := by
  rw [events_eq,List.filterMap_map]
  apply List.filterMap_congr
  intro c _
  exact hf c

theorem assigned_events (ts : List Token) :
    assigned (events (ts.map Token.piece)) = Symbols.defined (calls ts) := by
  apply filterMap_events
  intro c
  cases c <;> rfl

/-- Names that only one keyword has behind it are picked from its pairs. -/
theorem filterMap_events_named {f : Event → Option Bytes} {k : Symbols.Call → Option LabelLine}
    {word : Keyword} {ts : List Token} (hf : ∀ c, f c.event = (k c).map LabelLine.name)
    (hk : (calls ts).filterMap k = (named word ts).map labelLine) :
    (events (ts.map Token.piece)).filterMap f = (named word ts).map (·.2.text) := by
  have hn := congrArg (List.map LabelLine.name) hk
  rw [List.map_filterMap,List.map_map] at hn
  exact (filterMap_events hf ts).trans hn

theorem labelled_events (ts : List Token) :
    labelled (events (ts.map Token.piece)) = (named .label ts).map (·.2.text) := by
  refine filterMap_events_named (fun c => ?_) (declared_calls ts)
  cases c <;> rfl

theorem jumped_events (ts : List Token) :
    jumped (events (ts.map Token.piece)) = (named .goto ts).map (·.2.text) := by
  refine filterMap_events_named (fun c => ?_) (referenced_calls ts)
  cases c <;> rfl

theorem calls_split {passed more : List Token} {t : Token} (hk : t.kind = .ident) :
    calls (passed ++ t :: more) = calls passed ++
      (roleAfter .use passed t.text).call t.line :: callsAfter t.kind.role more := by
  rw [calls,callsAfter_append,callsAfter,if_pos hk]
  rfl

/-- The rules on names that do not ask where a label is declared. -/
structure NamesAllowed (es : List Event) : Prop where
  labels_allowed : ∀ n, .label n ∈ es ∨ .jump n ∈ es → isReserved .label n = false
  variables_allowed : ∀ n, .assign n ∈ es → isReserved .variable n = false
  uses_assigned : ∀ before n after, es = before ++ .use n :: after → .assign n ∈ before

theorem NamesAllowed.isReserved {es : List Event} (h : NamesAllowed es) {e : Event} (he : e ∈ es) :
    e.isReserved = false := by
  cases e with
  | label n => exact h.labels_allowed n (.inl he)
  | jump n => exact h.labels_allowed n (.inr he)
  | assign n => exact h.variables_allowed n he
  | use n => rfl

/-- What is at fault with the labels of a program: the first that is declared once more, or else the
first target that is not declared. -/
inductive LabelFault (tokens : List Token) : Fault → Prop
  | redeclared {before after : List (Token × Token)} {p first : Token × Token}
    (hl : named .label tokens = before ++ p :: after) (hn : (before.map (·.2.text)).Nodup)
    (hf : before.find? (·.2.text == p.2.text) = some first) :
    LabelFault tokens ⟨p.2.line,.name (.duplicateLabel p.2.text first.2.line)⟩
  | missing {p : Token × Token} (hn : ((named .label tokens).map (·.2.text)).Nodup)
    (hf : (named .goto tokens).find?
      (fun p => p.2.text ∉ (named .label tokens).map (·.2.text)) = some p) :
    LabelFault tokens ⟨p.2.line,.name (.undeclaredLabel p.2.text)⟩

section LabelFault
variable {tokens passed more : List Token} {t : Token} {fault : Fault}

/-- A search for a label among the entries is one among the tokens. -/
theorem find?_map_labelLine {ps : List (Token × Token)} {q : Bytes → Bool} {l : LabelLine}
    (h : (ps.map labelLine).find? (fun l => q l.name) = some l) :
    ∃ p, ps.find? (fun p => q p.2.text) = some p ∧ labelLine p = l := by
  rw [List.find?_map] at h
  exact Option.map_eq_some_iff.mp h

/-- A label that is declared for the second time. -/
theorem labelFault_of_redeclared {first : LabelLine} (ht : tokens = passed ++ t :: more)
    (hk : t.kind = .ident) (hu : roleAfter .use passed = .label)
    (hn : ((Symbols.declared (calls passed)).map LabelLine.name).Nodup)
    (hf : Symbols.firstOf (Symbols.declared (calls passed)) t.text = some first) :
    LabelFault tokens ⟨t.line,.name (.duplicateLabel t.text first.line)⟩ := by
  have hd : (named .label tokens).map labelLine = Symbols.declared (calls passed) ++
      ⟨t.text,t.line⟩ :: Symbols.declared (callsAfter t.kind.role more) := by
    refine (declared_calls tokens).symm.trans ?_
    rw [ht,calls_split hk,hu]
    simp [Symbols.declared,Event.call]
  obtain ⟨before,rest,hl,hb,hrest⟩ := List.map_eq_append_iff.mp hd
  obtain ⟨p,after,rfl,hp,-⟩ := List.map_eq_cons_iff.mp hrest
  obtain ⟨htext,hline⟩ := LabelLine.mk.inj hp
  rw [← hb,List.map_map] at hn
  rw [← hb,← htext] at hf
  obtain ⟨f,hfind,rfl⟩ := find?_map_labelLine (q := (· == p.2.text)) hf
  rw [← htext,← hline]
  exact .redeclared hl hn hfind

/-- When the other rules are kept, labels are at fault. -/
theorem Misnamed.labelFault (h : Misnamed tokens fault)
    (ha : NamesAllowed (events (tokens.map Token.piece))) : LabelFault tokens fault := by
  have hevents : ∀ {passed more : List Token} {t : Token}, tokens = passed ++ t :: more →
      t.kind = .ident → events (tokens.map Token.piece) = events (passed.map Token.piece) ++
        roleAfter .use passed t.text :: (callsAfter t.kind.role more).map Symbols.Call.event := by
    rintro passed more t rfl hk
    rw [events_eq,events_eq,calls_split hk,List.map_append,List.map_cons,Event.event_call]
  cases h with
  | reserved ht hk hr =>
    rw [ha.isReserved (by simp [hevents ht hk])] at hr
    cases hr
  | undefined ht hk hu hd =>
    have he := hevents ht hk
    rw [hu] at he
    have hm := mem_assigned.mpr (ha.uses_assigned _ _ _ he)
    rw [assigned_events] at hm
    exact absurd hm hd
  | redeclared ht hk hu hn hf => exact labelFault_of_redeclared ht hk hu hn hf
  | unlabelled hn hf =>
    rw [referenced_calls] at hf
    rw [declared_calls,List.map_map] at hn hf
    obtain ⟨p,hp,rfl⟩ := find?_map_labelLine
      (q := fun n => n ∉ (named .label tokens).map (LabelLine.name ∘ labelLine)) hf
    exact .missing hn hp

end LabelFault

namespace TokenStream
variable {source : List Char} {tokens : List Token} {n : Nat} {t u : Token}

/-- The tokens of a source without faults are what the lexer gives, call after call. -/
theorem next_of_getElem? (hu : (ofChars source).upToFault = (tokens,none))
    (h : tokens[n]? = some t) : ((Cursor.start source).after n).next.1 = .ok t := by
  obtain ⟨us,hi,rfl⟩ := upToFault_eq_none.mp hu
  have hitems : (ofChars source).items ++ [.ok (ofChars source).endToken] =
      (us ++ [(ofChars source).endToken]).map .ok := by
    rw [hi,List.map_append]
    rfl
  rw [← pull_ofChars]
  apply pull_of_getElem?
  rw [hitems,List.getElem?_map,h]
  rfl

/-- A token is on the line of the one in front of it, unless that one ends the line. -/
theorem line_of_getElem? (hu : (ofChars source).upToFault = (tokens,none))
    (ht : tokens[n]? = some t) (hn : tokens[n + 1]? = some u) (hk : t.kind ≠ .newline) :
    u.line = t.line := by
  have hnext := next_of_getElem? hu ht
  have hlater := next_of_getElem? hu hn
  have hs : (Cursor.start source).after (n + 1) = ((Cursor.start source).after n).next.2 :=
    Function.iterate_succ_apply' _ _ _
  rw [hs] at hlater
  generalize (Cursor.start source).after n = cursor at hnext hlater
  obtain ⟨-,hline,hafter⟩ := Cursor.next_ok (Cursor.next_of_ok hnext)
  rw [if_neg hk] at hafter
  rw [Cursor.line_of_ok hlater,hafter,hline]

theorem line_of_named (hu : (ofChars source).upToFault = (tokens,none)) {word : Keyword}
    {p : Token × Token} (h : p ∈ named word tokens) : p.2.line = p.1.line := by
  obtain ⟨hz,hk⟩ := List.mem_filter.mp h
  obtain ⟨n,hn⟩ := List.mem_iff_getElem?.mp hz
  rw [List.getElem?_zip_eq_some,List.getElem?_tail] at hn
  refine line_of_getElem? hu hn.1 hn.2 ?_
  rw [(of_decide_eq_true hk).1]
  simp

/-- A name stands in quotes as it is. -/
theorem quoted_of_named (hu : (ofChars source).upToFault = (tokens,none)) {word : Keyword}
    {p : Token × Token} (h : p ∈ named word tokens) :
    quoted p.2.text = "\"" ++ p.2.text ++ "\"" := by
  obtain ⟨-,hm,-,hk⟩ := mem_of_named h
  have ht : p.2 ∈ (ofChars source).upToFault.1 := by rwa [hu]
  obtain ⟨cursor,-,hn⟩ := exists_cursor_of_token ht
  have hw := Cursor.wellFormed_next (Cursor.next_of_ok hn)
  rw [Token.piece,hk] at hw
  exact IsWord.quoted_encode hw.1

theorem upToFault_of_snd {s : TokenStream} (h : s.upToFault.2 = none) :
    s.upToFault = (s.upToFault.1,none) := Prod.ext rfl h

end TokenStream

/-- The tokens of a tree are in order. -/
theorem Grammar.derives_program (b : Ast.Block) :
    Derives (.rule .program) (b.program.map Piece.kind) := by
  rw [Ast.Block.program,List.map_append]
  exact .rule (((derives_feeds 0).seq (derives_statements b (.refl _))).seq (.token .eof))

/-- A program with its tokens in order is accepted, with its names as they have to be, or it fails
because of a name. -/
theorem compileText_misnamed {src : Bytes} {tokens : List Token}
    (ht : (TokenStream.ofChars (decode (preprocess src))).upToFault = (tokens,none))
    (hg : Derives (.rule .program) (tokens.map Token.kind)) :
    (∃ text, (compileText src).2 = .ok text ∧ WellNamed (events (tokens.map Token.piece))) ∨
      ∃ fault, Misnamed tokens fault ∧
        (compileText src).2 = .error (.diagnostic (fault.explain (decode (preprocess src)))) := by
  have ht : (streamOf src).upToFault = (tokens,none) := ht
  have hp : TokenStream.Proper (streamOf src).items := TokenStream.proper_ofChars _
  cases h : Generator.program { stream := streamOf src } with
  | ok u g =>
    obtain ⟨-,us,b,hi,hs,hn,-⟩ := Generator.program_sound hp h
    refine .inl ⟨_,compileText_ok_iff.mpr ⟨us,b,hi,hs,hn,rfl⟩,?_⟩
    have hu := TokenStream.upToFault_eq_none.mpr ⟨us,hi,rfl⟩
    rw [ht] at hu
    cases hu
    rwa [hs.events_eq (endToken_piece _)]
  | error fault g =>
    refine .inr ⟨fault,?_,compileText_error_iff.mpr ⟨fault,g,h,rfl⟩⟩
    cases hk : fault.cause.kind with
    | lexical =>
      rcases Generator.program_blames hp h with ⟨_,hb⟩ | ⟨t,-,hb⟩ | ⟨hb,-⟩
      · rw [ht] at hb
        cases hb
      · exact absurd hk hb.kind_ne_lexical
      · exact absurd hk (Cause.kind_ne_lexical hb)
    | syntactic =>
      have hlex := TokenStream.lexes_ofChars (endsLine_preprocess src)
      obtain ⟨passed,t,more,hm,-,-,hn⟩ :=
        Generator.program_refuses h hk fun _ hf => hlex.lexical hf
      rw [ht] at hm
      refine absurd ?_ hn
      -- the tokens up to there begin the program
      have hv : Viable (tokens.map Token.kind) := ⟨[],by rwa [List.append_nil]⟩
      rw [show tokens = (passed ++ [t]) ++ more by simpa using hm,List.map_append] at hv
      exact hv.of_append
    | semantic =>
      have hm := misnamed_of_semantic h hk
      rwa [ht] at hm

section Messages
variable {name : Bytes} (hq : quoted name = "\"" ++ name ++ "\"")
include hq

theorem message_duplicateLabel (line : Nat) :
    (Cause.name (.duplicateLabel name line)).message = "label already exists: \"" ++ name ++
      "\" (first declared on line " ++ toString line ++ ")" := by
  have hopen : ofString "label already exists: \"" = "label already exists: " ++ "\"" := by decide
  have hclose : ofString "\" (first declared on line " = "\"" ++ " (first declared on line " := by
    decide
  change "label already exists: " ++ quoted name ++ " (first declared on line " ++
    decimal line ++ ")" = _
  rw [hq,decimal_eq,hopen,hclose]
  simp only [List.append_assoc]
  rfl

theorem message_undeclaredLabel : (Cause.name (.undeclaredLabel name)).message =
    "goto to undeclared label \"" ++ name ++ "\"" := by
  have hopen : ofString "goto to undeclared label \"" = "goto to undeclared label " ++ "\"" := by
    decide
  change "goto to undeclared label " ++ quoted name = _
  rw [hq,hopen]
  simp only [List.append_assoc]

end Messages

/-- When the names of a program are as they have to be, no label is declared twice and every jump
has its label. -/
theorem WellNamed.labels {tokens : List Token} (h : WellNamed (events (tokens.map Token.piece))) :
    ((named .label tokens).map (·.2.text)).Nodup ∧
      ∀ p ∈ named .goto tokens, p.2.text ∈ (named .label tokens).map (·.2.text) := by
  rw [← labelled_events]
  refine ⟨h.labels_once,fun p hp => mem_labelled.mpr (h.jumps_labelled _ ?_)⟩
  rw [← mem_jumped,jumped_events]
  exact List.mem_map_of_mem hp

/-- When nothing else is wrong with a program, the first label that is declared again is reported,
or else the first jump to a label that is declared nowhere. -/
theorem label_faults_exact {src : Bytes} {tokens : List Token}
    (ht : (TokenStream.ofChars (decode (preprocess src))).upToFault = (tokens,none))
    (hg : Derives (.rule .program) (tokens.map Token.kind))
    (ha : NamesAllowed (events (tokens.map Token.piece))) :
    let labels := named .label tokens
    let jumps := named .goto tokens
    (¬(labels.map (·.2.text)).Nodup → ∃ before p after first d,
      labels = before ++ p :: after ∧ (before.map (·.2.text)).Nodup ∧
        before.find? (·.2.text == p.2.text) = some first ∧
        (compileText src).2 = .error (.diagnostic d) ∧ d.line = p.2.line ∧
        d.cause = .name (.duplicateLabel p.2.text first.2.line) ∧
        d.cause.rule? = some .labelOnce ∧ d.cause.message = "label already exists: \"" ++
          p.2.text ++ "\" (first declared on line " ++ toString first.2.line ++ ")") ∧
    ((labels.map (·.2.text)).Nodup →
      match jumps.find? (·.2.text ∉ labels.map (·.2.text)) with
      | some p => ∃ d, (compileText src).2 = .error (.diagnostic d) ∧ d.line = p.1.line ∧
          d.cause = .name (.undeclaredLabel p.2.text) ∧
          d.cause.rule? = some .labelDeclared ∧
          d.cause.message = "goto to undeclared label \"" ++ p.2.text ++ "\""
      | none => ∃ text, (compileText src).2 = .ok text) := by
  dsimp only
  rcases compileText_misnamed ht hg with ⟨text,hc,hw⟩ | ⟨fault,hm,hc⟩
  · obtain ⟨hn,hj⟩ := hw.labels
    refine ⟨fun h => absurd hn h,fun _ => ?_⟩
    rw [List.find?_eq_none.mpr fun p hp => by simpa using hj p hp]
    exact ⟨text,hc⟩
  · cases hm.labelFault ha with
    | @redeclared before after p first hl hn hf =>
      have hp : p ∈ named .label tokens := by simp [hl]
      refine ⟨fun _ => ⟨_,_,_,_,_,hl,hn,hf,hc,rfl,rfl,rfl,?_⟩,fun hd => ?_⟩
      · exact message_duplicateLabel (TokenStream.quoted_of_named ht hp) _
      have htext : first.2.text = p.2.text := by simpa using List.find?_some hf
      have hm : first.2.text ∈ before.map (·.2.text) :=
        List.mem_map_of_mem (List.mem_of_find?_eq_some hf)
      rw [hl,List.map_append,List.nodup_append] at hd
      exact absurd htext (hd.2.2 _ hm _ (by simp))
    | missing hn hf =>
      refine ⟨fun h => absurd hn h,fun _ => ?_⟩
      have hp := List.mem_of_find?_eq_some hf
      rw [hf]
      refine ⟨_,hc,?_,rfl,rfl,message_undeclaredLabel (TokenStream.quoted_of_named ht hp)⟩
      exact congrArg Nat.cast (TokenStream.line_of_named ht hp)

/-- Two labels are declared twice, the one that is declared again first in a block, and a jump has
no label. -/
theorem label_faults_of_repeated :
    let src : Bytes :=
      "LET x = 1\nGOTO c\nIF x < 2 THEN\nLABEL b\nENDIF\nLABEL a\nLABEL b\nLABEL a"
    let tokens := (TokenStream.ofChars (decode (preprocess src))).upToFault.1
    let labels := named .label tokens
    let d : Diagnostic := ⟨⟨7,.name (.duplicateLabel "b" 4)⟩,"LABEL b"⟩
    (TokenStream.ofChars (decode (preprocess src))).upToFault = (tokens,none) ∧
      Derives (.rule .program) (tokens.map Token.kind) ∧
      NamesAllowed (events (tokens.map Token.piece)) ∧ ¬(labels.map (·.2.text)).Nodup ∧
      (compileText src).2 = .error (.diagnostic d) ∧
      d.cause.message = "label already exists: \"b\" (first declared on line 4)" ∧
      ∃ before p after first, labels = before ++ p :: after ∧
        (before.map (·.2.text)).Nodup ∧ before.find? (·.2.text == p.2.text) = some first ∧
        d.line = p.2.line ∧ d.cause = .name (.duplicateLabel p.2.text first.2.line) ∧
        d.cause.message = "label already exists: \"" ++ p.2.text ++
          "\" (first declared on line " ++ toString first.2.line ++ ")" := by
  intro src tokens labels d
  have ht : (TokenStream.ofChars (decode (preprocess src))).upToFault = (tokens,none) :=
    TokenStream.upToFault_of_snd (by decide +kernel)
  have hg : Derives (.rule .program) (tokens.map Token.kind) := by
    have hk : tokens.map Token.kind = (Ast.Block.program [
        .assign ['x'] ⟨⟨⟨none,.number ['1']⟩,[]⟩,[]⟩,.goto ['c'],
        .block .conditional ⟨⟨⟨⟨⟨none,.ident ['x']⟩,[]⟩,[]⟩,
          [(.lt,⟨⟨⟨none,.number ['2']⟩,[]⟩,[]⟩)]⟩,by simp⟩ [.label ['b']],
        .label ['a'],.label ['b'],.label ['a']]).map Piece.kind := by decide +kernel
    rw [hk]
    exact derives_program _
  have ha : NamesAllowed (events (tokens.map Token.piece)) := by
    have he : events (tokens.map Token.piece) = [.assign "x",.jump "c",.use "x",.label "b",
      .label "a",.label "b",.label "a"] := by decide +kernel
    have hr : ∀ e ∈ [.assign "x",.jump "c",.use "x",.label "b",.label "a",.label "b",.label "a"],
      Event.isReserved e = false := by decide +kernel
    rw [he]
    refine ⟨fun n hn => ?_,fun n hn => hr (.assign n) hn,fun before n after hs => ?_⟩
    · rcases hn with hn | hn
      · exact hr (.label n) hn
      · exact hr (.jump n) hn
    · rcases before with _ | ⟨e,before⟩
      · cases hs
      · have hm : .use n ∈ e :: before ++ .use n :: after := by simp
        rw [← hs] at hm
        obtain rfl : n = "x" := by simpa using hm
        rw [(List.cons_eq_cons.mp hs).1]
        exact List.mem_cons_self
  have hn : ¬(labels.map (·.2.text)).Nodup := by decide +kernel
  have hd : (compileText src).2 = .error (.diagnostic d) := error_of_diagnostic? (by decide +kernel)
  refine ⟨ht,hg,ha,hn,hd,by decide +kernel,?_⟩
  obtain ⟨before,p,after,first,e,hl,hb,hf,he,hline,hcause,-,hmessage⟩ :=
    (label_faults_exact ht hg ha).1 hn
  obtain rfl : e = d := CompileError.diagnostic.inj (Except.error.inj (he.symm.trans hd))
  exact ⟨before,p,after,first,hl,hb,hf,hline,hcause,hmessage⟩

end TeenyTiny

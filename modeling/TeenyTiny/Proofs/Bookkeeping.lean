import TeenyTiny.Proofs.Histories
import TeenyTiny.Proofs.Verdicts

/-! The symbol table of a run and the tokens that the run has passed. Every identifier makes one
call on the table, and the token in front of it tells which; the target of an assignment is entered
behind the equals sign. So the tokens alone tell what is wrong when a name is at fault. -/
namespace TeenyTiny
open Text

/-- The call on the table that goes with an event. -/
def Event.call (line : Int) : Event → Symbols.Call
  | label name => .declareLabel name line
  | jump name => .referenceLabel name line
  | assign name => .define name
  | use name => .lookup name

/-- The event gives a reserved name to a variable or a label. -/
def Event.isReserved : Event → Bool
  | label name | jump name => TeenyTiny.isReserved .label name
  | assign name => TeenyTiny.isReserved .variable name
  | use _ => false

/-- What an identifier does behind these tokens. -/
def roleAfter (role : Bytes → Event) (tokens : List Token) : Bytes → Event :=
  tokens.foldl (fun _ t => t.kind.role) role

def callsAfter : (role : Bytes → Event) → List Token → List Symbols.Call
  | _,[] => []
  | role,t :: ts =>
    (if t.kind = .ident then [(role t.text).call t.line] else []) ++ callsAfter t.kind.role ts

/-- The calls that the identifiers of a program make, in their order. -/
def calls (tokens : List Token) : List Symbols.Call := callsAfter .use tokens

@[simp] theorem roleAfter_concat (role : Bytes → Event) (ts : List Token) (t : Token) :
    roleAfter role (ts ++ [t]) = t.kind.role := by
  simp [roleAfter]

theorem callsAfter_append (role : Bytes → Event) (ts us : List Token) :
    callsAfter role (ts ++ us) = callsAfter role ts ++ callsAfter (roleAfter role ts) us := by
  induction ts generalizing role with
  | nil => rfl
  | cons t ts ih => simp [callsAfter,ih,roleAfter]

theorem calls_concat_ident {t : Token} (ts : List Token) (hk : t.kind = .ident) :
    calls (ts ++ [t]) = calls ts ++ [(roleAfter .use ts t.text).call t.line] := by
  simp [calls,callsAfter_append,callsAfter,hk]

theorem calls_concat_other {t : Token} (ts : List Token) (hk : t.kind ≠ .ident) :
    calls (ts ++ [t]) = calls ts := by
  simp [calls,callsAfter_append,callsAfter,hk]

/-- The identifiers right behind this keyword, with the keyword. -/
def named (word : Keyword) (tokens : List Token) : List (Token × Token) :=
  (tokens.zip tokens.tail).filter fun p => p.1.kind = .keyword word ∧ p.2.kind = .ident

/-- The name and the line that such a pair has in the table. -/
def labelLine (p : Token × Token) : LabelLine := ⟨p.2.text,p.2.line⟩

theorem mem_of_named {word : Keyword} {tokens : List Token} {p : Token × Token}
    (h : p ∈ named word tokens) :
    p.1 ∈ tokens ∧ p.2 ∈ tokens ∧ p.1.kind = .keyword word ∧ p.2.kind = .ident := by
  obtain ⟨hz,hk⟩ := List.mem_filter.mp h
  obtain ⟨h₁,h₂⟩ := List.of_mem_zip hz
  exact ⟨h₁,List.mem_of_mem_tail h₂,of_decide_eq_true hk⟩

/-- The calls that only the names behind one keyword make. -/
theorem filterMap_calls {f : Symbols.Call → Option LabelLine} {word : Keyword}
    (hf : ∀ (kind : Kind) (n : Bytes) (line : Int),
      f ((kind.role n).call line) = if kind = .keyword word then some ⟨n,line⟩ else none)
    (tokens : List Token) :
    (calls tokens).filterMap f = (named word tokens).map labelLine := by
  have hbehind : ∀ (ts : List Token) (t : Token), (callsAfter t.kind.role ts).filterMap f =
      (named word (t :: ts)).map labelLine := by
    intro ts
    induction ts with
    | nil => exact fun _ => rfl
    | cons u ts ih =>
      intro t
      have hn : named word (t :: u :: ts) =
          (if t.kind = .keyword word ∧ u.kind = .ident then [(t,u)] else []) ++
            named word (u :: ts) := by
        unfold named
        rw [List.tail_cons,List.zip_cons_cons,List.filter_cons]
        by_cases hp : t.kind = .keyword word ∧ u.kind = .ident
        · rw [if_pos (decide_eq_true hp),if_pos hp]
          rfl
        · rw [if_neg (by simpa using hp),if_neg hp]
          rfl
      rw [callsAfter,List.filterMap_append,ih u,hn,List.map_append]
      congr 1
      by_cases hi : u.kind = .ident
      · by_cases hk : t.kind = .keyword word <;> simp [hi,hf,hk,labelLine]
      · simp [hi]
  cases tokens with
  | nil => rfl
  | cons t ts =>
    have huse : f ((Event.use t.text).call t.line) = none := hf .eof t.text t.line
    rw [calls,callsAfter,List.filterMap_append,hbehind ts t]
    split_ifs <;> simp [huse]

theorem declared_calls (tokens : List Token) :
    Symbols.declared (calls tokens) = (named .label tokens).map labelLine := by
  refine filterMap_calls (fun kind n line => ?_) tokens
  cases kind with
  | keyword k => cases k <;> rfl
  | _ => rfl

theorem referenced_calls (tokens : List Token) :
    Symbols.referenced (calls tokens) = (named .goto tokens).map labelLine := by
  refine filterMap_calls (fun kind n line => ?_) tokens
  cases kind with
  | keyword k => cases k <;> rfl
  | _ => rfl

/-- What the tokens of a program say about a fault with a name in it. -/
inductive Misnamed (tokens : List Token) : Fault → Prop
  | reserved {passed more : List Token} {t : Token} (ht : tokens = passed ++ t :: more)
    (hk : t.kind = .ident) (hr : (roleAfter .use passed t.text).isReserved = true) :
    Misnamed tokens ⟨t.line,.name (.reservedName t.text)⟩
  | undefined {passed more : List Token} {t : Token} (ht : tokens = passed ++ t :: more)
    (hk : t.kind = .ident) (hu : roleAfter .use passed = .use)
    (hd : t.text ∉ Symbols.defined (calls passed)) :
    Misnamed tokens ⟨t.line,.name (.undeclaredVariable t.text)⟩
  | redeclared {passed more : List Token} {t : Token} {first : LabelLine}
    (ht : tokens = passed ++ t :: more) (hk : t.kind = .ident)
    (hu : roleAfter .use passed = .label)
    (hn : ((Symbols.declared (calls passed)).map LabelLine.name).Nodup)
    (hf : Symbols.firstOf (Symbols.declared (calls passed)) t.text = some first) :
    Misnamed tokens ⟨t.line,.name (.duplicateLabel t.text first.line)⟩
  | unlabelled {target : LabelLine}
    (hn : ((Symbols.declared (calls tokens)).map LabelLine.name).Nodup)
    (hf : (Symbols.referenced (calls tokens)).find?
      (fun l => l.name ∉ (Symbols.declared (calls tokens)).map LabelLine.name) = some target) :
    Misnamed tokens ⟨target.line,.name (.undeclaredLabel target.name)⟩

/-- Keywords with a name behind them. -/
def Kind.isNaming : Kind → Bool
  | keyword .label | keyword .goto | keyword .let_ | keyword .input => true
  | _ => false

theorem Kind.role_of_isNaming {kind : Kind} (h : kind.isNaming = false) : kind.role = .use := by
  cases kind with
  | keyword k =>
    cases k with
    | label | goto | let_ | input => cases h
    | _ => rfl
  | _ => rfl

theorem Kind.isNaming_eq_false {p : Kind → Bool} (hp : ∀ k, p (.keyword k) = false) {kind : Kind}
    (h : p kind = true) : kind.isNaming = false := by
  cases kind with
  | keyword k =>
    rw [hp] at h
    cases h
  | _ => rfl

namespace Generator

/-- What the table waits for: the next name, in some role, or the end of an assignment whose target
has been passed. -/
inductive Due where
  | name (role : Bytes → Event)
  | equals (target : List Char)
  | define (target : List Char)

namespace Due

def role : Due → Bytes → Event
  | name role => role
  | _ => .use

/-- The calls that are still to be made. -/
def pending : Due → List Symbols.Call
  | name _ => []
  | equals target | define target => [.define (encode target)]

end Due

/-- Goals that enter nothing and leave no name waiting. -/
def Goal.isSteady : Goal → Bool
  | .pass kind => !kind.isNaming
  | .start (.assigned _) | .label | .jump | .target | .input => false
  | _ => true

/-- What the table waits for before a goal and behind it. -/
inductive Goal.Turns : Goal → Due → Due → Prop
  | steady {goal : Goal} (h : goal.isSteady = true) : Turns goal (.name .use) (.name .use)
  | naming {kind : Kind} : Turns (.pass kind) (.name .use) (.name kind.role)
  | equals {n : List Char} : Turns (.pass .assign) (.equals n) (.define n)
  | define {n : List Char} : Turns (.start (.assigned n)) (.define n) (.name .use)
  | label : Turns .label (.name .label) (.name .use)
  | jump : Turns .jump (.name .jump) (.name .use)
  | target : Turns .target (.name .assign) (.name .use)
  | input : Turns .input (.name .assign) (.name .use)

/-- What the table waits for before some goals and behind them. -/
inductive Course : Due → List Goal → Due → Prop
  | nil {d : Due} : Course d [] d
  | cons {goal : Goal} {goals : List Goal} {d e f : Due} (h : goal.Turns d e)
    (rest : Course e goals f) : Course d (goal :: goals) f

section Course
variable {goal : Goal} {goals more : List Goal} {t : Token} {passes : Bool}

theorem Course.append {d e f : Due} {gs hs : List Goal} (h : Course d gs e) (h' : Course e hs f) :
    Course d (gs ++ hs) f := by
  induction h with
  | nil => exact h'
  | cons ht _ ih => exact .cons ht (ih h')

theorem course_steady (h : goals.all Goal.isSteady = true) :
    Course (.name .use) goals (.name .use) := by
  induction goals with
  | nil => exact .nil
  | cons goal goals ih =>
    rw [List.all_cons,Bool.and_eq_true] at h
    exact .cons (.steady h.1) (ih h.2)

theorem course_rest {kind : Kind} (h : Goal.rest? kind = some goals) :
    Course (.name .use) (.pass kind :: (goals ++ [.lineEnd])) (.name .use) := by
  have hend : Course (.name .use) [.lineEnd] (.name .use) := course_steady rfl
  unfold Goal.rest? at h
  split at h
  · obtain rfl := Option.some.inj h
    exact course_steady rfl
  · obtain rfl := Option.some.inj h
    exact course_steady rfl
  · obtain rfl := Option.some.inj h
    exact course_steady rfl
  · obtain rfl := Option.some.inj h
    exact .cons .naming (.cons .label hend)
  · obtain rfl := Option.some.inj h
    exact .cons .naming (.cons .jump hend)
  · obtain rfl := Option.some.inj h
    exact .cons .naming (.cons .target hend)
  · obtain rfl := Option.some.inj h
    exact .cons .naming (.cons .input hend)
  · cases h

/-- A steady goal leaves others that enter what they name, and passes no keyword that a name comes
behind. -/
theorem Goal.course_of_plan? (hg : goal.isSteady = true)
    (h : goal.plan? t = some (passes,more)) :
    Course (.name .use) more (.name .use) ∧ (passes = true → t.kind.isNaming = false) := by
  have hif : ∀ {p : Kind → Bool} {out otherwise : List Goal},
      (∀ k, p (.keyword k) = false) → out.all isSteady = true → otherwise.all isSteady = true →
      Course (.name .use) (if p t.kind then .pass t.kind :: out else otherwise) (.name .use) := by
    intro p out otherwise hp ho hn
    split_ifs with hk
    · exact course_steady (by simp [isSteady,Kind.isNaming_eq_false hp hk,ho])
    · exact course_steady hn
  cases goal with
  | pass kind =>
    rw [plan?] at h
    split_ifs at h with hk
    cases h
    exact ⟨.nil,fun _ => by simpa [isSteady,hk] using hg⟩
  | lineEnd =>
    rw [plan?] at h
    split_ifs at h with hk
    cases h
    exact ⟨course_steady rfl,fun _ => by simp [hk,Kind.isNaming]⟩
  | feeds =>
    rw [plan?] at h
    split_ifs at h with hk <;> cases h
    · exact ⟨course_steady rfl,fun _ => by simp [hk,Kind.isNaming]⟩
    · exact ⟨.nil,by simp⟩
  | operand =>
    rw [plan?] at h
    split_ifs at h with hk
    cases h
    refine ⟨course_steady ?_,by simp⟩
    rcases hk with hk | hk <;> rw [hk] <;> rfl
  | unary | factors | summands | comparands =>
    cases h
    exact ⟨hif (fun _ => rfl) rfl rfl,by simp⟩
  | compared =>
    rw [plan?] at h
    split_ifs at h
    cases h
    exact ⟨course_steady rfl,by simp⟩
  | print =>
    cases h
    refine ⟨course_steady ?_,by simp⟩
    split_ifs <;> rfl
  | statement =>
    obtain ⟨rest,hr,h⟩ := Option.map_eq_some_iff.mp h
    cases h
    exact ⟨course_rest hr,by simp⟩
  | statements kind =>
    rw [plan?] at h
    split_ifs at h <;> cases h <;> exact ⟨course_steady rfl,by simp⟩
  | start | finish | close | ending | resolve =>
    cases h
    exact ⟨course_steady rfl,by simp⟩
  | label | jump | target | input => cases hg

end Course

/-- The call that a goal makes. -/
def Goal.call? : Goal → Token → Option Symbols.Call
  | .label,t => some (.declareLabel t.text t.line)
  | .jump,t => some (.referenceLabel t.text t.line)
  | .input,t => some (.define t.text)
  | .start (.assigned n),_ => some (.define (encode n))
  | _,_ => none

section Table
variable {g g' : Generator} {goal : Goal} {more : List Goal}

/-- The table changes by the call of the goal, if it makes one, and no label is declared twice. -/
theorem symbols_of_ok (h : perform goal g = .ok more g') :
    g'.symbols = g.symbols.replay (goal.call? g.current).toList ∧
      ∀ first, .earlier (some first) ∉ g.symbols.answers (goal.call? g.current).toList := by
  have hnone : goal.call? g.current = none → g'.symbols = g.symbols →
      g'.symbols = g.symbols.replay (goal.call? g.current).toList ∧
        ∀ first, .earlier (some first) ∉ g.symbols.answers (goal.call? g.current).toList := by
    intro hc hs
    rw [hc]
    exact ⟨hs,by simp [Symbols.answers]⟩
  cases goal with
  | pass | lineEnd =>
    obtain ⟨-,-,ha⟩ := expecting_ok h
    exact hnone rfl (untouched_of_advance ha).1
  | feeds =>
    rw [perform] at h
    split_ifs at h
    · exact hnone rfl (untouched_of_advance (passing_ok h).2).1
    · cases h
      exact hnone rfl rfl
  | label =>
    obtain ⟨t,g₁,hn,hp⟩ := bind_ok.mp h
    obtain ⟨-,rfl,-,ha⟩ := name_ok.mp hn
    obtain ⟨hd,-,rfl⟩ := placeLabel_ok hp
    rw [(untouched_of_advance ha).1] at hd
    refine ⟨by rw [← (untouched_of_advance ha).1]; rfl,?_⟩
    simp [Goal.call?,Symbols.answers,hd]
  | jump | input =>
    obtain ⟨t,g₁,hn,hp⟩ := bind_ok.mp h
    obtain ⟨-,rfl,-,ha⟩ := name_ok.mp hn
    cases hp
    exact ⟨by rw [← (untouched_of_advance ha).1]; rfl,by simp [Goal.call?,Symbols.answers]⟩
  | target =>
    obtain ⟨t,g₁,hn,hp⟩ := bind_ok.mp h
    obtain ⟨-,rfl,-,ha⟩ := name_ok.mp hn
    cases hp
    exact hnone rfl (untouched_of_advance ha).1
  | start f =>
    cases h
    cases f with
    | assigned n => exact ⟨rfl,by simp [Goal.call?,Symbols.answers]⟩
    | _ => exact hnone rfl rfl
  | finish | close | ending =>
    cases h
    exact hnone rfl rfl
  | operand =>
    rw [perform] at h
    split at h
    · cases h
      exact hnone rfl rfl
    · split_ifs at h
      cases h
      exact hnone rfl rfl
    · cases h
  | unary | factors | summands | comparands =>
    rw [perform] at h
    unfold copying at h
    split_ifs at h <;> cases h <;> exact hnone rfl rfl
  | compared | print | statements =>
    rw [perform] at h
    split_ifs at h <;> cases h <;> exact hnone rfl rfl
  | statement | resolve =>
    rw [perform] at h
    split at h <;> cases h
    exact hnone rfl rfl

end Table

/-- The calls of the tokens that are passed have been made, up to those that are still due. -/
structure Noted (passed : List Token) (s : Symbols) (d : Due) : Prop where
  role : roleAfter .use passed = d.role
  table : ∃ made, calls passed = made ++ d.pending ∧ s.Recalls made ∧
    ((Symbols.declared made).map LabelLine.name).Nodup

section Noted
variable {passed : List Token} {s : Symbols} {d e : Due} {t : Token} {n : List Char}
  {g g' : Generator} {goal : Goal} {more : List Goal}

/-- Where a name is waited for, nothing else is due. -/
theorem Noted.recalls {role : Bytes → Event} (h : Noted passed s (.name role)) :
    s.Recalls (calls passed) ∧ ((Symbols.declared (calls passed)).map LabelLine.name).Nodup := by
  obtain ⟨made,hm,hr,hn⟩ := h.table
  obtain rfl : calls passed = made := by simpa [Due.pending] using hm
  exact ⟨hr,hn⟩

/-- A label that is not refused is new. -/
theorem nodup_declared {made : List Symbols.Call} (h : s.Recalls made)
    (hn : ((Symbols.declared made).map LabelLine.name).Nodup) {c : Symbols.Call}
    (hc : ∀ first, (s.call c).1 ≠ .earlier (some first)) :
    ((Symbols.declared (made ++ [c])).map LabelLine.name).Nodup := by
  have ha := h.answer c
  cases c with
  | declareLabel name line =>
    rw [ha] at hc
    have hf : Symbols.firstOf (Symbols.declared made) name = none := by
      rw [Option.eq_none_iff_forall_ne_some]
      intro first hf
      exact hc first (congrArg Symbols.Answer.earlier hf)
    have hm := Symbols.firstOf_eq_none.mp hf
    rw [Symbols.declared_concat,List.map_append]
    exact List.nodup_append.mpr ⟨hn,by simp,by simpa using hm⟩
  | _ => simpa using hn

/-- An identifier makes its call. -/
theorem Noted.call {role : Bytes → Event} (h : Noted passed s (.name role)) (hk : t.kind = .ident)
    (hc : ∀ first, (s.call ((role t.text).call t.line)).1 ≠ .earlier (some first)) :
    Noted (passed ++ [t]) (s.call ((role t.text).call t.line)).2 (.name .use) := by
  obtain ⟨hr,hn⟩ := h.recalls
  have hrole : roleAfter .use passed = role := h.role
  refine ⟨?_,_,?_,hr.call _,nodup_declared hr hn hc⟩
  · rw [roleAfter_concat,hk]
    rfl
  · rw [calls_concat_ident _ hk,hrole]
    exact (List.append_nil _).symm

/-- A token that names nothing new is passed. -/
theorem Noted.pass (h : Noted passed s (.name .use)) (t : Token) :
    Noted (passed ++ [t]) s (.name t.kind.role) := by
  by_cases hk : t.kind = .ident
  · have hc := h.call hk (by simp [Event.call])
    rw [hk]
    exact hc
  · obtain ⟨made,hm,hr⟩ := h.table
    exact ⟨roleAfter_concat _ _ _,made,(calls_concat_other _ hk).trans hm,hr⟩

/-- The target of an assignment is passed, and entered later. -/
theorem Noted.target (h : Noted passed s (.name .assign)) (hk : t.kind = .ident) :
    Noted (passed ++ [t]) s (.equals t.lexeme) := by
  have hrole : roleAfter .use passed = .assign := h.role
  refine ⟨?_,_,?_,h.recalls⟩
  · rw [roleAfter_concat,hk]
    rfl
  · rw [calls_concat_ident _ hk,hrole]
    rfl

theorem Noted.equals (h : Noted passed s (.equals n)) (hk : t.kind = .assign) :
    Noted (passed ++ [t]) s (.define n) := by
  obtain ⟨made,hm,hr⟩ := h.table
  refine ⟨?_,made,?_,hr⟩
  · rw [roleAfter_concat,hk]
    rfl
  · rw [calls_concat_other _ (by simp [hk]),hm]
    rfl

theorem Noted.define (h : Noted passed s (.define n)) :
    Noted passed (s.define (encode n)).2 (.name .use) := by
  obtain ⟨made,hm,hr,hn⟩ := h.table
  exact ⟨h.role,_,by simpa [Due.pending] using hm,hr.call (.define (encode n)),by simpa using hn⟩

theorem Goal.call?_of_isSteady (h : goal.isSteady = true) (t : Token) : goal.call? t = none := by
  cases goal with
  | start f =>
    cases f with
    | assigned n => cases h
    | _ => rfl
  | label | jump | target | input => cases h
  | _ => rfl

/-- A goal that passes a name has made its call. -/
theorem Noted.named {role : Bytes → Event} (h : Noted passed g.symbols (.name role))
    (hk : g.current.kind = .ident)
    (hc : goal.call? g.current = some ((role g.current.text).call g.current.line))
    (hs : perform goal g = .ok more g') :
    Noted (passed ++ [g.current]) g'.symbols (.name .use) := by
  obtain ⟨hsymbols,hanswers⟩ := symbols_of_ok hs
  rw [hc] at hsymbols hanswers
  rw [hsymbols]
  exact h.call hk fun first hf => hanswers first (List.mem_singleton.mpr hf.symm)

/-- A goal keeps the books, with the goals that it leaves. -/
theorem Noted.step {passes : Bool} (h : Noted passed g.symbols d) (ht : goal.Turns d e)
    (hp : goal.plan? g.current = some (passes,more)) (hs : perform goal g = .ok more g') :
    ∃ d', Noted (passed ++ if passes then [g.current] else []) g'.symbols d' ∧
      Course d' more e := by
  have hsymbols := (symbols_of_ok hs).1
  cases ht with
  | steady hg =>
    obtain ⟨hcourse,hk⟩ := Goal.course_of_plan? hg hp
    rw [Goal.call?_of_isSteady hg] at hsymbols
    refine ⟨.name .use,?_,hcourse⟩
    rw [hsymbols]
    cases passes with
    | true =>
      have hrole := Kind.role_of_isNaming (hk rfl)
      exact hrole ▸ h.pass g.current
    | false =>
      rw [if_neg (by simp),List.append_nil]
      exact h
  | naming =>
    rw [Goal.plan?] at hp
    split_ifs at hp with hk
    cases hp
    refine ⟨_,?_,.nil⟩
    rw [hsymbols,← hk]
    exact h.pass g.current
  | equals =>
    rw [Goal.plan?] at hp
    split_ifs at hp with hk
    cases hp
    exact ⟨_,hsymbols ▸ h.equals hk,.nil⟩
  | define =>
    cases hp
    refine ⟨_,?_,.nil⟩
    rw [hsymbols,if_neg (by simp),List.append_nil]
    exact h.define
  | label | jump | input =>
    rw [Goal.plan?] at hp
    split_ifs at hp with hk
    cases hp
    exact ⟨_,h.named hk rfl hs,.nil⟩
  | target =>
    rw [Goal.plan?] at hp
    split_ifs at hp with hk
    cases hp
    exact ⟨_,hsymbols ▸ h.target hk,.cons .equals (.cons .define (course_steady rfl))⟩

end Noted

/-- What the name that a goal passes must not be reserved for. -/
def Goal.nameUse? : Goal → Option NameUse
  | .label | .jump => some .label
  | .target | .input => some .variable
  | _ => none

/-- The faults with a name in them that a goal may find. -/
inductive Finds (g : Generator) : Goal → Fault → Prop
  | reserved {goal : Goal} {use : NameUse} (hu : goal.nameUse? = some use)
    (hk : g.current.kind = .ident) (hr : isReserved use g.current.text = true) :
    Finds g goal ⟨g.current.line,.name (.reservedName g.current.text)⟩
  | undefined (hk : g.current.kind = .ident) (hd : g.symbols.isDefined g.current.text = false) :
    Finds g .operand ⟨g.current.line,.name (.undeclaredVariable g.current.text)⟩
  | redeclared {first : LabelLine} (hk : g.current.kind = .ident)
    (hd : (g.symbols.declareLabel g.current.text g.current.line).1 = some first) :
    Finds g .label ⟨g.current.line,.name (.duplicateLabel g.current.text first.line)⟩
  | unlabelled {target : LabelLine} (hu : g.symbols.unresolved.head? = some target) :
    Finds g .resolve ⟨target.line,.name (.undeclaredLabel target.name)⟩

section Finds
variable {g : Generator} {goal : Goal} {line : Int} {cause : NameCause}

theorem finds_of_naming {use : NameUse} {result : Except Fault (List Goal × Symbols × Listing)}
    (hu : goal.nameUse? = some use)
    (hr : g.current.kind = .ident → result = .error ⟨line,.name cause⟩ →
      Finds g goal ⟨line,.name cause⟩)
    (h : (g.naming use result).result = .error ⟨line,.name cause⟩) :
    Finds g goal ⟨line,.name cause⟩ := by
  unfold naming passage at h
  split_ifs at h with hk hi hreserved
  · cases h
  · cases h
    exact .reserved hu hi hreserved
  · exact hr hi h
  · cases h

theorem finds_of_verdict (h : (verdict goal g).result = .error ⟨line,.name cause⟩) :
    Finds g goal ⟨line,.name cause⟩ := by
  cases goal with
  | label =>
    refine finds_of_naming rfl (fun hk hp => ?_) h
    unfold placeLabel at hp
    split at hp
    · rename_i first symbols hd
      cases hp
      exact .redeclared hk (congrArg Prod.fst hd)
    · cases hp
  | jump | target | input => exact finds_of_naming rfl (fun _ hp => by cases hp) h
  | operand =>
    change entered (perform .operand g) = _ at h
    rw [perform] at h
    split at h
    · cases h
    · rename_i hk
      split_ifs at h with hd
      · cases h
      · cases h
        exact .undefined hk (Bool.eq_false_iff.mpr hd)
    · cases h
  | resolve =>
    change entered (perform .resolve g) = _ at h
    rw [perform] at h
    split at h
    · cases h
    · rename_i hu
      cases h
      exact .unlabelled (by rw [hu]; rfl)
  | pass | lineEnd =>
    rw [verdict,passage] at h
    split_ifs at h <;> cases h
  | feeds =>
    rw [verdict] at h
    split_ifs at h <;> cases h
  | unary | factors | summands | comparands =>
    change entered (copying _ _ _ g) = _ at h
    unfold copying at h
    split_ifs at h <;> cases h
  | compared | print | statements =>
    change entered (perform _ g) = _ at h
    rw [perform] at h
    split_ifs at h <;> cases h
  | start | finish | close | ending => cases h
  | statement =>
    change entered (perform .statement g) = _ at h
    rw [perform] at h
    split at h <;> cases h

/-- A goal that passes a name begins where one is waited for. -/
theorem Goal.Turns.exists_role {use : NameUse} {d e : Due} (h : goal.Turns d e)
    (hu : goal.nameUse? = some use) :
    ∃ role, d = .name role ∧ ∀ n, (role n).isReserved = isReserved use n := by
  cases h with
  | steady hs =>
    cases goal with
    | label | jump | target | input => cases hs
    | _ => cases hu
  | naming | equals | define => cases hu
  | label | jump | target | input =>
    cases hu
    exact ⟨_,rfl,fun _ => rfl⟩

end Finds

section Misnamed
variable {stream : TokenStream} {passed : List Token} {ahead : List (Except Fault Token)}
  {goal : Goal} {goals : List Goal} {d e : Due} {g g' : Generator} {fault : Fault}

/-- What a goal finds with the table is so by the tokens that are passed. -/
theorem Noted.misnamed (h : Noted passed g.symbols d) (ht : goal.Turns d e)
    (hr : Reached stream passed ahead (goal :: goals) g) (hp : TokenStream.Proper stream.items)
    (hf : Finds g goal fault) : Misnamed stream.upToFault.1 fault := by
  obtain ⟨more,hm⟩ := hr.tokens
  cases hf with
  | reserved hu hk hr =>
    obtain ⟨role,rfl,hrole⟩ := ht.exists_role hu
    have hd : roleAfter .use passed = role := h.role
    exact .reserved hm hk (hd ▸ (hrole _).trans hr)
  | undefined hk hd =>
    cases ht with
    | steady hs =>
      refine .undefined hm hk h.role fun hmem => ?_
      rw [h.recalls.1.isDefined,List.contains_iff_mem.mpr hmem] at hd
      cases hd
  | @redeclared first hk hd =>
    cases ht with
    | steady hs => cases hs
    | label =>
      obtain ⟨hrec,hn⟩ := h.recalls
      have ha := hrec.answer (.declareLabel g.current.text g.current.line)
      rw [Symbols.call,hd] at ha
      exact .redeclared hm hk h.role hn (Symbols.Answer.earlier.inj ha).symm
  | unlabelled hu =>
    cases ht with
    | steady hs =>
      obtain ⟨hrec,hn⟩ := h.recalls
      rw [hrec.head?_unresolved] at hu
      -- every token is passed, and the end token makes no call
      obtain rfl := hr.ahead_nil hp hr.stage.kind_eq_eof
      have htokens : stream.upToFault = (passed ++ [stream.endToken],none) :=
        TokenStream.upToFault_eq_none.mpr ⟨passed,by simpa using hr.items,rfl⟩
      have hc : calls (passed ++ [stream.endToken]) = calls passed :=
        calls_concat_other passed (by simp [TokenStream.endToken])
      rw [htokens]
      exact .unlabelled (hc ▸ hn) (hc ▸ hu)

/-- When a program fails because of a name, its tokens tell why. -/
theorem program_misnamed (hp : TokenStream.Proper stream.items)
    (h : program { stream := stream } = .error fault g') (hk : fault.cause.kind = .semantic)
    (hl : ∀ fault, .error fault ∈ stream.items → fault.cause.kind = .lexical) :
    Misnamed stream.upToFault.1 fault := by
  have hlex : ∀ before, stream.upToFault ≠ (before,some fault) := by
    intro before hu
    obtain ⟨rest,hi⟩ := TokenStream.upToFault_eq_some.mp hu
    rw [hl fault (by simp [hi])] at hk
    cases hk
  rcases program_fails h with ⟨before,hu⟩ | ⟨g,hs,hr,hd⟩
  · exact absurd hu (hlex before)
  have hopen : Noted [] (opened g).symbols (.name .use) := by
    change Noted [] g.symbols _
    rw [hs]
    exact ⟨rfl,[],rfl,Symbols.recalls_nil,List.nodup_nil⟩
  -- the books are kept along the run, and what is due fits the goals that are left
  obtain ⟨goal,goals,g₁,⟨passed,ahead,d,hr,hn,hc⟩,hf⟩ := hd.fails
    (fun goals g => ∃ passed ahead d, Reached stream passed ahead goals g ∧
      Noted passed g.symbols d ∧ Course d goals (.name .use))
    ⟨_,_,_,hr,hopen,course_steady rfl⟩ <| by
      rintro goal goals g more g' ⟨passed,ahead,d,hr,hn,hc⟩ hg
      obtain _ | ⟨ht,hrest⟩ := hc
      rcases hr.step hg with ⟨rest,hplan,-,hr'⟩ | ⟨hplan,-,hr'⟩
      · obtain ⟨d',hn',hmore⟩ := hn.step ht hplan hg
        exact ⟨_,_,d',hr',hn',hmore.append hrest⟩
      · obtain ⟨d',hn',hmore⟩ := hn.step ht hplan hg
        exact ⟨_,_,d',hr',by simpa using hn',hmore.append hrest⟩
  obtain _ | ⟨ht,-⟩ := hc
  rcases hr.fails hf with hv | ⟨before,hu⟩
  · obtain ⟨line,cause⟩ := fault
    cases cause with
    | name cause => exact hn.misnamed ht hr hp (finds_of_verdict hv)
    | _ => cases hk
  · exact absurd hu (hlex before)

end Misnamed
end Generator
end TeenyTiny

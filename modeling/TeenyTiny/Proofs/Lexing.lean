import TeenyTiny.Proofs.Scanning

/-! The run of the lexer over a text whose lines are ended. A line feed stops everything that is
read, so what the lexer finds up to the end of a line does not depend on the text behind it; texts
can be put together there, and their lines are counted on. -/
namespace TeenyTiny
open Text Lexer

section Span
variable {α : Type} [DecidableEq α] {p : α → Bool} {x : α} {xs : List α}

theorem count_dropWhile (hx : p x = false) (xs : List α) :
    (xs.dropWhile p).count x = xs.count x := by
  induction xs with
  | nil => rfl
  | cons y xs ih =>
    by_cases hy : p y = true
    · have hne : y ≠ x := by
        rintro rfl
        rw [hx] at hy
        cases hy
      rw [List.dropWhile_cons_of_pos hy,ih,List.count_cons_of_ne hne]
    · rw [List.dropWhile_cons_of_neg hy]

theorem mem_dropWhile (hx : p x = false) (h : x ∈ xs) : x ∈ xs.dropWhile p := by
  rw [← List.count_pos_iff] at h ⊢
  rwa [count_dropWhile hx]

theorem dropWhile_append_of_mem (hx : p x = false) (h : x ∈ xs) (ys : List α) :
    (xs ++ ys).dropWhile p = xs.dropWhile p ++ ys := by
  have hne : xs.dropWhile p ≠ [] := List.ne_nil_of_mem (mem_dropWhile hx h)
  rw [List.dropWhile_append,if_neg (by simpa using hne)]

theorem takeWhile_append_of_mem (hx : p x = false) (h : x ∈ xs) (ys : List α) :
    (xs ++ ys).takeWhile p = xs.takeWhile p := by
  have hsplit := List.takeWhile_append_dropWhile (p := p) (l := xs ++ ys)
  rw [dropWhile_append_of_mem hx h,← List.append_assoc] at hsplit
  refine List.append_cancel_right (List.append_cancel_right hsplit |>.trans ?_)
  exact List.takeWhile_append_dropWhile.symm

end Span

namespace Lexer

/-- The line feeds that a reading passes. -/
def Reading.feeds (r : Reading) : Nat :=
  match r.outcome with
  | .ok (.newline,_) => 1
  | _ => 0

/-- Of the line feeds in the characters, none is passed but as a token. -/
def Reading.Counts (r : Reading) (cs : List Char) : Prop :=
  r.feeds + r.rest.count '\n' = cs.count '\n'

section Count
variable {cs rest lexeme : List Char} {kind : Kind} {cause : LexicalCause}

theorem counts_ok (hk : kind ≠ .newline) (h : rest.count '\n' = cs.count '\n') :
    Reading.Counts ⟨.ok (kind,lexeme),rest⟩ cs := by
  have hf : Reading.feeds ⟨.ok (kind,lexeme),rest⟩ = 0 := by
    cases kind with
    | newline => exact absurd rfl hk
    | _ => rfl
  rw [Reading.Counts,hf,Nat.zero_add]
  exact h

theorem counts_error (h : rest.count '\n' = cs.count '\n') :
    Reading.Counts ⟨.error cause,rest⟩ cs := by
  rw [Reading.Counts]
  exact (Nat.zero_add _).trans h

theorem count_skipGap (cs : List Char) : (skipGap cs).count '\n' = cs.count '\n' := by
  have hd := count_dropWhile (p := isGap) (x := '\n') rfl cs
  unfold skipGap
  split
  · rename_i rest he
    rw [he,List.count_cons_of_ne (by decide)] at hd
    rw [count_dropWhile (by simp),hd]
  · exact hd

theorem counts_readNumber (cs : List Char) : (readNumber cs).Counts cs := by
  have hd := count_dropWhile (p := Char.isDigit) (x := '\n') rfl cs
  unfold readNumber
  dsimp only
  split
  · rename_i rest he
    rw [he,List.count_cons_of_ne (by decide)] at hd
    split
    · exact counts_error hd
    · split_ifs
      · exact counts_ok (by simp) ((count_dropWhile rfl _).trans hd)
      · exact counts_error hd
  · exact counts_ok (by simp) hd

theorem counts_readWord (cs : List Char) : (readWord cs).Counts cs := by
  refine counts_ok ?_ (count_dropWhile rfl cs)
  unfold Kind.ofWord
  cases Keyword.ofChars? (cs.takeWhile isWordChar) <;> simp

theorem counts_readString (cs : List Char) : (readString cs).Counts cs := by
  have hd := count_dropWhile (p := isStringChar) (x := '\n') rfl cs
  unfold readString
  split
  · rename_i he
    exact counts_error (he ▸ hd)
  · rename_i c rest he
    rw [he] at hd
    split_ifs with hc
    · rw [hc,List.count_cons_of_ne (by decide)] at hd
      exact counts_ok (by simp) hd
    · exact counts_error hd

theorem counts_readExtensible {c : Char} {short long : Kind} (hs : short ≠ .newline)
    (hl : long ≠ .newline) (cs : List Char) : (readExtensible c short long cs).Counts cs := by
  cases cs with
  | nil => exact counts_ok (by simp) rfl
  | cons d cs =>
    rw [readExtensible]
    split_ifs with hd
    · exact counts_ok hl (by simp [hd])
    · exact counts_ok hs rfl

theorem counts_readSymbol (c : Char) (cs : List Char) : (readSymbol c cs).Counts (c :: cs) := by
  have hcons : ∀ {r : Reading} {d : Char}, d ≠ '\n' → r.Counts cs → r.Counts (d :: cs) := by
    intro r d hd h
    rwa [Reading.Counts,List.count_cons_of_ne hd]
  unfold readSymbol
  split
  case h_1 => rw [Reading.Counts,List.count_cons_self,Nat.add_comm]; rfl
  case h_6 | h_7 | h_8 => exact hcons (by decide) (counts_readExtensible (by simp) (by simp) cs)
  case h_9 =>
    refine hcons (by decide) ?_
    split
    · exact counts_error rfl
    · split_ifs with hd
      · exact counts_ok (by simp) (by simp [hd])
      · exact counts_error rfl
  case h_10 hn _ _ _ _ _ _ _ _ => exact hcons hn (counts_error rfl)
  all_goals exact hcons (by decide) (counts_ok (by simp) rfl)

theorem counts_read (cs : List Char) : (read cs).Counts cs := by
  cases cs with
  | nil => rfl
  | cons c cs =>
    rw [read]
    split_ifs with hd hl hq
    · exact counts_readNumber _
    · exact counts_readWord _
    · rw [hq,Reading.Counts,List.count_cons_of_ne (by decide)]
      exact counts_readString cs
    · exact counts_readSymbol c cs

end Count

/-- The reading of the same characters with others behind them. -/
def Reading.before (r : Reading) (ds : List Char) : Reading := ⟨r.outcome,r.rest ++ ds⟩

theorem skipGap_blanks {cs : List Char} (hn : (cs.dropWhile isGap).head? ≠ some '#') :
    skipGap cs = cs.dropWhile isGap := by
  unfold skipGap
  split
  · rename_i he
    rw [he] at hn
    exact absurd rfl hn
  · rfl

theorem readNumber_whole {cs : List Char} (hn : (cs.dropWhile Char.isDigit).head? ≠ some '.') :
    readNumber cs = ⟨.ok (.number,cs.takeWhile Char.isDigit),cs.dropWhile Char.isDigit⟩ := by
  unfold readNumber
  dsimp only
  split
  · rename_i he
    rw [he] at hn
    exact absurd rfl hn
  · rfl

theorem readNumber_pointed {cs rest : List Char} {d : Char}
    (he : cs.dropWhile Char.isDigit = '.' :: d :: rest) : readNumber cs =
      if d.isDigit then ⟨.ok (.number,cs.takeWhile Char.isDigit ++
        '.' :: (d :: rest).takeWhile Char.isDigit),(d :: rest).dropWhile Char.isDigit⟩
      else ⟨.error (.missingFraction (some d)),d :: rest⟩ := by
  unfold readNumber
  rw [he]
  rfl

section Before
variable {cs : List Char} (h : '\n' ∈ cs) (ds : List Char)
include h

theorem head?_dropWhile_before {p : Char → Bool} (hp : p '\n' = false) :
    ((cs ++ ds).dropWhile p).head? = (cs.dropWhile p).head? := by
  rw [dropWhile_append_of_mem hp h,
    List.head?_append_of_ne_nil _ (List.ne_nil_of_mem (mem_dropWhile hp h))]

theorem skipGap_before : skipGap (cs ++ ds) = skipGap cs ++ ds := by
  by_cases hc : (cs.dropWhile isGap).head? = some '#'
  · obtain ⟨rest,he⟩ := List.head?_eq_some_iff.mp hc
    have hm : '\n' ∈ rest := by simpa [he] using mem_dropWhile (p := isGap) rfl h
    unfold skipGap
    rw [dropWhile_append_of_mem rfl h,he]
    exact dropWhile_append_of_mem (by simp) hm ds
  · rw [skipGap_blanks hc,skipGap_blanks (by rwa [head?_dropWhile_before h ds rfl]),
      dropWhile_append_of_mem rfl h]

theorem readNumber_before : readNumber (cs ++ ds) = (readNumber cs).before ds := by
  by_cases hc : (cs.dropWhile Char.isDigit).head? = some '.'
  · obtain ⟨rest,he⟩ := List.head?_eq_some_iff.mp hc
    have hm : '\n' ∈ rest := by simpa [he] using mem_dropWhile (p := Char.isDigit) rfl h
    cases rest with
    | nil => cases hm
    | cons d rest =>
      have he' : (cs ++ ds).dropWhile Char.isDigit = '.' :: d :: (rest ++ ds) := by
        rw [dropWhile_append_of_mem rfl h,he]
        rfl
      rw [readNumber_pointed he,readNumber_pointed he',← List.cons_append,
        takeWhile_append_of_mem rfl h,takeWhile_append_of_mem rfl hm,
        dropWhile_append_of_mem rfl hm]
      split_ifs <;> rfl
  · rw [readNumber_whole hc,readNumber_whole (by rwa [head?_dropWhile_before h ds rfl]),
      takeWhile_append_of_mem rfl h,dropWhile_append_of_mem rfl h]
    rfl

theorem readWord_before : readWord (cs ++ ds) = (readWord cs).before ds := by
  unfold readWord
  rw [takeWhile_append_of_mem rfl h,dropWhile_append_of_mem rfl h]
  rfl

theorem readString_before : readString (cs ++ ds) = (readString cs).before ds := by
  have hm : '\n' ∈ cs.dropWhile isStringChar := mem_dropWhile rfl h
  unfold readString
  rw [takeWhile_append_of_mem rfl h,dropWhile_append_of_mem rfl h]
  cases he : cs.dropWhile isStringChar with
  | nil =>
    rw [he] at hm
    cases hm
  | cons c rest =>
    dsimp only [List.cons_append]
    split_ifs <;> rfl

theorem readExtensible_before (c : Char) (short long : Kind) :
    readExtensible c short long (cs ++ ds) = (readExtensible c short long cs).before ds := by
  cases cs with
  | nil => cases h
  | cons d cs =>
    rw [List.cons_append,readExtensible,readExtensible]
    split_ifs <;> rfl

end Before

theorem readSymbol_before {c : Char} {cs : List Char} (h : '\n' ∈ c :: cs) (ds : List Char) :
    readSymbol c (cs ++ ds) = (readSymbol c cs).before ds := by
  have hm : c ≠ '\n' → '\n' ∈ cs := by
    intro hc
    rcases List.mem_cons.mp h with h | h
    · exact absurd h.symm hc
    · exact h
  unfold readSymbol
  split
  case h_6 | h_7 | h_8 => exact readExtensible_before (hm (by decide)) ds _ _ _
  case h_9 =>
    have hm := hm (by decide)
    cases cs with
    | nil => cases hm
    | cons d cs =>
      dsimp only [List.cons_append]
      split_ifs <;> rfl
  all_goals rfl

theorem read_before {cs : List Char} (h : '\n' ∈ cs) (ds : List Char) :
    read (cs ++ ds) = (read cs).before ds := by
  cases cs with
  | nil => cases h
  | cons c cs =>
    rw [List.cons_append,read,read]
    split_ifs with hd hl hq
    · exact readNumber_before h ds
    · exact readWord_before h ds
    · have hm : '\n' ∈ cs := by
        rw [hq] at h
        simpa using h
      exact readString_before hm ds
    · exact readSymbol_before h ds

/-- In front of a line feed there is a token or a fault. -/
theorem read_ne_eof {cs : List Char} (h : '\n' ∈ cs) (lexeme : List Char) :
    (read cs).outcome ≠ .ok (.eof,lexeme) := by
  intro ho
  have hr : read cs = ⟨.ok (.eof,lexeme),(read cs).rest⟩ := by rw [← ho]
  refine (takes_read hr (List.ne_nil_of_mem h) ?_).proper rfl
  rintro c hc rfl
  obtain rfl := List.mem_singleton.mp h
  simp [extensible] at hc

end Lexer

namespace Cursor
variable {cursor : Cursor}

def itemLine : Except Fault Token → Int
  | .ok t => t.line
  | .error fault => fault.line

theorem itemLine_next (cursor : Cursor) : itemLine cursor.next.1 = cursor.line := by
  unfold next
  dsimp only
  split <;> rfl

theorem lexical_next {fault : Fault} (h : cursor.next.1 = .error fault) :
    fault.cause.kind = .lexical := by
  unfold next at h
  dsimp only at h
  split at h
  · cases h
  · cases h
    rfl

/-- Lines are counted with the line feeds that are passed. -/
theorem next_line (cursor : Cursor) :
    cursor.next.2.line = cursor.line + (read (skipGap cursor.rest)).feeds := by
  unfold next Reading.feeds
  dsimp only
  cases ho : (read (skipGap cursor.rest)).outcome with
  | error cause => rfl
  | ok x =>
    obtain ⟨kind,lexeme⟩ := x
    dsimp only
    split_ifs with hk
    · rw [hk]
    · cases kind with
      | newline => exact absurd rfl hk
      | _ => rfl

theorem next_count (cursor : Cursor) : cursor.next.2.line + cursor.next.2.rest.count '\n' =
    cursor.line + cursor.rest.count '\n' := by
  have hc : Reading.Counts _ _ := counts_read (skipGap cursor.rest)
  unfold Reading.Counts at hc
  rw [next_line,next_rest,← count_skipGap cursor.rest,← hc,Nat.add_assoc]

theorem mem_skipGap (h : '\n' ∈ cursor.rest) : '\n' ∈ skipGap cursor.rest := by
  rw [← List.count_pos_iff] at h ⊢
  rwa [count_skipGap]

theorem next_before (h : '\n' ∈ cursor.rest) (ds : List Char) :
    next ⟨cursor.rest ++ ds,cursor.line⟩ =
      (cursor.next.1,⟨cursor.next.2.rest ++ ds,cursor.next.2.line⟩) := by
  unfold next
  dsimp only
  rw [skipGap_before h,read_before (mem_skipGap h)]
  unfold Reading.before
  dsimp only
  cases (read (skipGap cursor.rest)).outcome <;> rfl

/-- A token is read as the same piece on every line. -/
theorem piece_next {cursor' : Cursor} (hr : cursor'.rest = cursor.rest) {t : Token}
    (h : cursor.next.1 = .ok t) : ∃ t', cursor'.next.1 = .ok t' ∧ t'.piece = t.piece := by
  unfold next at h ⊢
  dsimp only at h ⊢
  rw [hr]
  cases ho : (read (skipGap cursor.rest)).outcome with
  | ok x =>
    rw [ho] at h
    cases h
    exact ⟨_,rfl,rfl⟩
  | error cause =>
    rw [ho] at h
    cases h

theorem length_next (h : '\n' ∈ cursor.rest) :
    cursor.next.2.rest.length < cursor.rest.length := by
  have hm := mem_skipGap h
  rw [next_rest]
  have hl := (skipGap_suffix cursor.rest).length_le
  cases hs : skipGap cursor.rest with
  | nil =>
    rw [hs] at hm
    cases hm
  | cons c cs =>
    have hr := (suffix_read_cons c cs).length_le
    rw [hs,List.length_cons] at hl
    omega

end Cursor

/-- What the lexer finds in a text whose lines are ended, and the line it ends on. -/
inductive Lexes : Cursor → List (Except Fault Token) → Nat → Prop
  | done (line : Nat) : Lexes ⟨[],line⟩ [] line
  | step {cursor : Cursor} {items : List (Except Fault Token)} {last : Nat}
    (h : '\n' ∈ cursor.rest) (rest : Lexes cursor.next.2 items last) :
    Lexes cursor (cursor.next.1 :: items) last

namespace Lexes
variable {cursor : Cursor} {items : List (Except Fault Token)} {last : Nat}

theorem unique {items' : List (Except Fault Token)} {last' : Nat} (h : Lexes cursor items last)
    (h' : Lexes cursor items' last') : items = items' ∧ last = last' := by
  induction h generalizing items' last' with
  | done line =>
    cases h' with
    | done => exact ⟨rfl,rfl⟩
    | step h => cases h
  | step hf _ ih =>
    cases h' with
    | done => cases hf
    | step _ h' =>
      obtain ⟨rfl,rfl⟩ := ih h'
      exact ⟨rfl,rfl⟩

/-- Behind a text the lexer goes on with the next one. -/
theorem append {cs ds : List Char} {line middle : Nat} {items' : List (Except Fault Token)}
    (h : Lexes ⟨cs,line⟩ items middle) (h' : Lexes ⟨ds,middle⟩ items' last) :
    Lexes ⟨cs ++ ds,line⟩ (items ++ items') last := by
  generalize hc : (⟨cs,line⟩ : Cursor) = cursor at h
  induction h generalizing cs line with
  | done =>
    cases hc
    exact h'
  | @step cursor items middle hf rest ih =>
    subst hc
    have hn := Cursor.next_before hf ds
    have hm : '\n' ∈ cs ++ ds := List.mem_append_left ds hf
    have hs : Lexes (Cursor.next ⟨cs ++ ds,line⟩).2 (items ++ items') last := by
      rw [hn]
      exact ih h' rfl
    have hs := Lexes.step hm hs
    rwa [hn] at hs

theorem last_eq (h : Lexes cursor items last) : last = cursor.line + cursor.rest.count '\n' := by
  induction h with
  | done => rfl
  | step _ _ ih => rw [ih,Cursor.next_count]

theorem line_le (h : Lexes cursor items last) :
    ∀ item ∈ items, (cursor.line : Int) ≤ Cursor.itemLine item := by
  induction h with
  | done => simp
  | @step cursor items last hf _ ih =>
    intro item hi
    rcases List.mem_cons.mp hi with rfl | hi
    · exact Int.le_of_eq (Cursor.itemLine_next cursor).symm
    · have hl := Cursor.next_line cursor
      have hle := ih item hi
      omega

/-- What is found behind comes on no earlier line. -/
theorem sorted (h : Lexes cursor items last) :
    items.Pairwise fun x y => Cursor.itemLine x ≤ Cursor.itemLine y := by
  induction h with
  | done => exact .nil
  | @step cursor items last hf rest ih =>
    refine List.pairwise_cons.mpr ⟨fun item hi => ?_,ih⟩
    have hl := Cursor.next_line cursor
    have hle := rest.line_le item hi
    rw [Cursor.itemLine_next]
    omega

theorem line_lt (h : Lexes cursor items last) : ∀ item ∈ items, Cursor.itemLine item < last := by
  induction h with
  | done => simp
  | @step cursor items last hf rest ih =>
    intro item hi
    rcases List.mem_cons.mp hi with rfl | hi
    · have hl := (Lexes.step hf rest).last_eq
      have hpos := List.count_pos_iff.mpr hf
      rw [Cursor.itemLine_next]
      omega
    · exact ih item hi

/-- The same pieces are found from every line on. -/
theorem pieces {cursor' : Cursor} {us : List Token} {items' : List (Except Fault Token)}
    {last' : Nat} (h : Lexes cursor (us.map .ok) last) (h' : Lexes cursor' items' last')
    (hr : cursor'.rest = cursor.rest) :
    ∃ vs : List Token, items' = vs.map .ok ∧ vs.map Token.piece = us.map Token.piece := by
  generalize hi : us.map Except.ok = items at h
  induction h generalizing cursor' us items' with
  | done line =>
    obtain rfl := List.map_eq_nil_iff.mp hi
    cases h' with
    | done => exact ⟨[],rfl,rfl⟩
    | step hf =>
      rw [hr] at hf
      cases hf
  | @step cursor items last hf _ ih =>
    obtain ⟨u,us,rfl,hu,hi⟩ := List.map_eq_cons_iff.mp hi
    cases h' with
    | done =>
      rw [← hr] at hf
      cases hf
    | step _ rest =>
      obtain ⟨t,ht,hp⟩ := Cursor.piece_next hr hu.symm
      obtain ⟨vs,rfl,hv⟩ := ih rest (by rw [Cursor.next_rest,Cursor.next_rest,hr]) hi
      exact ⟨t :: vs,by rw [ht,List.map_cons],by rw [List.map_cons,List.map_cons,hp,hv]⟩

theorem lexical (h : Lexes cursor items last) {fault : Fault} (hf : .error fault ∈ items) :
    fault.cause.kind = .lexical := by
  induction h with
  | done => cases hf
  | step _ _ ih =>
    rcases List.mem_cons.mp hf with hf | hf
    · exact Cursor.lexical_next hf.symm
    · exact ih hf

end Lexes

theorem EndsLine.mem {cs : List Char} (h : EndsLine cs) (hne : cs ≠ []) : '\n' ∈ cs := by
  have hl := List.getLast?_eq_some_getLast hne
  rw [← h _ hl]
  exact List.getLast_mem hne

namespace TokenStream

theorem lexes_collect {fuel : Nat} {cursor : Cursor} (hf : cursor.rest.length < fuel)
    (he : EndsLine cursor.rest) :
    Lexes cursor (collect fuel [] cursor).items (collect fuel [] cursor).endLine := by
  induction fuel generalizing cursor with
  | zero => exact absurd hf (Nat.not_lt_zero _)
  | succ fuel ih =>
    by_cases hr : cursor.rest = []
    · obtain ⟨rest,line⟩ := cursor
      cases hr
      exact .done line
    have hm := he.mem hr
    have hl := Cursor.length_next hm
    have hs := Lexes.step hm (ih (by omega) (he.of_suffix cursor.next_suffix))
    rcases hn : cursor.next with ⟨fault | t,after⟩
    · rw [collect_error hn]
      rwa [hn] at hs
    · have hr := (Cursor.next_ok hn).1
      have hk : t.kind ≠ .eof := by
        intro hk
        refine read_ne_eof (Cursor.mem_skipGap hm) t.lexeme ?_
        rw [hr,hk]
      rw [collect_ok hn hk]
      rwa [hn] at hs

/-- The stream of a source is what the lexer finds in it. -/
theorem lexes_ofChars {source : List Char} (he : EndsLine source) :
    Lexes ⟨source,1⟩ (ofChars source).items (ofChars source).endLine :=
  lexes_collect (Nat.lt_succ_self _) he

end TokenStream
end TeenyTiny

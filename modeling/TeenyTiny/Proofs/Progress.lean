import Mathlib.Logic.Function.Iterate
import TeenyTiny.Proofs.Lexing

/-! The lexer gets on. A call passes a character or gives the end token, and with the end token the
cursor is at the end of the source and stays there. So there are no more calls before the end than
characters, and the stream of a source gives what the lexer gives, call after call. -/
namespace TeenyTiny
open Text Lexer

/-- The end token is read at the end, or from an operator that is the last character. -/
theorem Lexer.read_eof {cs lexeme rest : List Char} (h : read cs = ⟨.ok (.eof,lexeme),rest⟩) :
    lexeme = [] ∧ rest = [] ∧ '\n' ∉ cs := by
  by_cases hc : cs = []
  · subst hc
    cases h
    exact ⟨rfl,rfl,List.not_mem_nil⟩
  by_cases hx : ∀ c ∈ extensible, cs ≠ [c]
  · exact absurd rfl (takes_read h hc hx).proper
  · simp only [not_forall,not_not] at hx
    obtain ⟨c,hm,rfl⟩ := hx
    have hr : read [c] = ⟨.ok (.eof,[]),[]⟩ ∧ '\n' ∉ [c] := by
      simp only [extensible,List.mem_cons,List.not_mem_nil,or_false] at hm
      rcases hm with rfl | rfl | rfl <;> exact ⟨rfl,by decide⟩
    rw [hr.1] at h
    cases h
    exact ⟨rfl,rfl,hr.2⟩

namespace Cursor
variable {source : List Char} {cursor : Cursor}

/-- The place of the cursor in the source. -/
def offset (source : List Char) (cursor : Cursor) : Nat := source.length - cursor.rest.length

/-- The cursor after so many calls. -/
def after (cursor : Cursor) (n : Nat) : Cursor := (fun c => c.next.2)^[n] cursor

theorem after_succ (cursor : Cursor) (n : Nat) : cursor.after (n + 1) = cursor.next.2.after n := rfl

theorem reached_after (source : List Char) (n : Nat) : Reached source ((start source).after n) := by
  induction n with
  | zero => exact .start
  | succ n ih =>
    have hs : (start source).after (n + 1) = ((start source).after n).next.2 :=
      Function.iterate_succ_apply' _ _ _
    rw [hs]
    exact ih.next

theorem Reached.drop_offset (h : Reached source cursor) :
    source.drop (cursor.offset source) = cursor.rest := by
  obtain ⟨before,rfl⟩ := h.suffix
  simp [offset]

/-- With the end token the lexer is at the end, and no line is left. -/
theorem next_eof {t : Token} (h : cursor.next.1 = .ok t) (hk : t.kind = .eof) :
    t = ⟨.eof,[],cursor.line⟩ ∧ cursor.next.2 = ⟨[],cursor.line⟩ ∧ '\n' ∉ cursor.rest := by
  obtain ⟨hr,hl,ha⟩ := next_ok (Prod.ext h rfl : cursor.next = (.ok t,cursor.next.2))
  rw [hk] at hr ha
  obtain ⟨hlex,hrest,hn⟩ := read_eof hr
  refine ⟨?_,?_,fun hm => hn (mem_skipGap hm)⟩
  · obtain ⟨kind,lexeme,line⟩ := t
    cases hk
    cases hlex
    cases hl
    rfl
  · rw [if_neg (by simp)] at ha
    rw [← hrest,← ha]

/-- At the end every call gives the end token of the line and changes nothing. -/
theorem next_nil (line : Nat) :
    next ⟨[],line⟩ = (.ok ⟨.eof,[],line⟩,⟨[],line⟩) := rfl

theorem after_nil (line n : Nat) : after ⟨[],line⟩ n = ⟨[],line⟩ :=
  Function.iterate_fixed (congrArg Prod.snd (next_nil line)) n

/-- A call passes a character or gives the end token. -/
theorem length_next_lt (cursor : Cursor) : cursor.next.2.rest.length < cursor.rest.length ∨
    ∃ t, cursor.next.1 = .ok t ∧ t.kind = .eof := by
  have hg := (skipGap_suffix cursor.rest).length_le
  cases hs : skipGap cursor.rest with
  | nil =>
    refine .inr ⟨⟨.eof,[],cursor.line⟩,?_,rfl⟩
    rw [next,hs]
    rfl
  | cons c cs =>
    have hr := (suffix_read_cons c cs).length_le
    rw [hs,List.length_cons] at hg
    rw [next_rest,hs]
    exact .inl (by omega)

/-- One character less is left after a call, until none is left. -/
theorem length_next_le (cursor : Cursor) :
    cursor.next.2.rest.length ≤ cursor.rest.length - 1 := by
  rcases cursor.length_next_lt with h | ⟨t,ht,hk⟩
  · omega
  · obtain ⟨-,ha,-⟩ := next_eof ht hk
    rw [ha]
    exact Nat.zero_le _

theorem length_after_le (cursor : Cursor) (n : Nat) :
    (cursor.after n).rest.length ≤ cursor.rest.length - n := by
  induction n generalizing cursor with
  | zero => exact le_rfl
  | succ n ih =>
    rw [after_succ]
    have hn := cursor.length_next_le
    have ha := ih cursor.next.2
    omega

/-- Lines are counted from the start of the source. -/
theorem Reached.line_add_count (h : Reached source cursor) :
    cursor.line + cursor.rest.count '\n' = 1 + source.count '\n' := by
  induction h with
  | start => rfl
  | next _ ih => rw [next_count,ih]

theorem rest_after {n : Nat} (h : source.length ≤ n) : ((start source).after n).rest = [] := by
  have hl : _ ≤ source.length - n := (start source).length_after_le n
  rw [← List.length_eq_zero_iff]
  omega

/-- When as many calls are made as there are characters, only the end token is left. -/
theorem next_after {n : Nat} (h : source.length ≤ n) :
    ((start source).after n).next.1 = .ok ⟨.eof,[],1 + source.count '\n'⟩ := by
  have hr := rest_after h
  have hc := (reached_after source n).line_add_count
  generalize (start source).after n = cursor at hr hc
  obtain ⟨rest,line⟩ := cursor
  cases hr
  rw [next_nil,← hc]
  rfl

end Cursor

namespace TokenStream

/-- The stream after so many results. -/
def after (s : TokenStream) (n : Nat) : TokenStream := (fun s => s.pull.2)^[n] s

theorem after_succ (s : TokenStream) (n : Nat) : s.after (n + 1) = s.pull.2.after n := rfl

theorem after_nil (line n : Nat) : after ⟨[],line⟩ n = ⟨[],line⟩ :=
  Function.iterate_fixed rfl n

/-- Before the end token one result is followed by those of the rest. -/
theorem collect_succ {cursor : Cursor} (h : ¬∃ t, cursor.next.1 = .ok t ∧ t.kind = .eof)
    (fuel : Nat) : collect (fuel + 1) [] cursor =
      ⟨cursor.next.1 :: (collect fuel [] cursor.next.2).items,
        (collect fuel [] cursor.next.2).endLine⟩ := by
  rcases hn : cursor.next with ⟨fault | t,rest⟩
  · exact collect_error hn fuel
  · refine collect_ok hn (fun hk => h ⟨t,?_,hk⟩) fuel
    rw [hn]

/-- The stream of what is left gives what the lexer gives. -/
theorem pull_collect {fuel : Nat} {cursor : Cursor} (h : cursor.rest.length < fuel) (n : Nat) :
    ((collect fuel [] cursor).after n).pull.1 = (cursor.after n).next.1 := by
  induction fuel generalizing cursor n with
  | zero => exact absurd h (Nat.not_lt_zero _)
  | succ fuel ih =>
    by_cases he : ∃ t, cursor.next.1 = .ok t ∧ t.kind = .eof
    · obtain ⟨t,ht,hk⟩ := he
      obtain ⟨rfl,ha,-⟩ := Cursor.next_eof ht hk
      rw [collect_eof (Prod.ext ht rfl) rfl,after_nil]
      cases n with
      | zero => exact ht.symm
      | succ n =>
        rw [Cursor.after_succ,ha,Cursor.after_nil]
        rfl
    · have hlen := cursor.length_next_lt.resolve_right he
      rw [collect_succ he]
      cases n with
      | zero => rfl
      | succ n => exact ih (by omega) n

/-- Each result of the stream of a source is the result of the same call of the lexer. -/
theorem pull_ofChars (source : List Char) (n : Nat) :
    ((ofChars source).after n).pull.1 = ((Cursor.start source).after n).next.1 :=
  pull_collect (Nat.lt_succ_self _) n

end TokenStream
end TeenyTiny

import TeenyTiny.Proofs.Lexing
import TeenyTiny.Proofs.Programs

/-! Sources that are put together behind a line feed. No character and no token goes over the seam,
so the stream of the whole source begins with the one of its first part, and the lines of the first
part are read in it as before. -/
namespace TeenyTiny
open Text Lexer

/-- The byte order mark. -/
def mark : Bytes := [0xEF,0xBB,0xBF]

/-- A source without the mark at its start. -/
def unmarked (src : Bytes) : Bytes :=
  match src with
  | 0xEF :: 0xBB :: 0xBF :: rest => rest
  | _ => src

/-- A text whose last line is ended, if it has one. -/
def ended (b : Bytes) : Bytes := if b = [] then [] else endLine b

theorem preprocess_eq (src : Bytes) : preprocess src = ended (unmarked src) := rfl

theorem unmarked_eq_self {src : Bytes} (h : ¬ mark <+: src) : unmarked src = src := by
  unfold unmarked
  split
  · exact absurd (List.prefix_append mark _) h
  · rfl

section Append
variable {src : Bytes} (hs : src.getLast? = some 10) (more : Bytes)
include hs

theorem mark_prefix_append : mark <+: src ++ more ↔ mark <+: src := by
  refine ⟨fun h => ?_,fun h => h.trans (List.prefix_append _ _)⟩
  rcases List.prefix_or_prefix_of_prefix h (List.prefix_append src more) with hm | hm
  · exact hm
  · -- a part of the mark does not end a line
    have hmem : (10 : UInt8) ∈ mark := hm.subset (List.mem_of_getLast? hs)
    simp [mark] at hmem

theorem unmarked_append :
    unmarked (src ++ more) = unmarked src ++ more ∧ (unmarked src).getLast? = some 10 := by
  by_cases hm : mark <+: src
  · obtain ⟨rest,rfl⟩ := hm
    refine ⟨rfl,?_⟩
    cases rest with
    | nil => simp [mark] at hs
    | cons x rest => simpa [mark,unmarked] using hs
  · have hm' : ¬ mark <+: src ++ more := by rwa [mark_prefix_append hs]
    rw [unmarked_eq_self hm,unmarked_eq_self hm']
    exact ⟨rfl,hs⟩

theorem ended_append : ended (src ++ more) = ended src ++ ended more := by
  have hne : src ≠ [] := by
    rintro rfl
    cases hs
  have hsrc : ended src = src := by rw [ended,if_neg hne,endLine,if_pos hs]
  rw [hsrc]
  by_cases hm : more = []
  · rw [hm,List.append_nil,hsrc]
    exact (List.append_nil src).symm
  · rw [ended,ended,if_neg (by simp [hne]),if_neg hm,endLine,endLine,List.getLast?_append,
      List.getLast?_eq_some_getLast hm,Option.some_or]
    split_ifs
    · rfl
    · exact List.append_assoc _ _ _

theorem decode_preprocess_append : decode (preprocess (src ++ more)) =
    decode (preprocess src) ++ decode (ended more) := by
  obtain ⟨hu,hl⟩ := unmarked_append hs more
  have hpre : preprocess src = unmarked src := by
    have hne : unmarked src ≠ [] := by
      intro he
      rw [he] at hl
      cases hl
    rw [preprocess_eq,ended,if_neg hne,endLine,if_pos hl]
  rw [preprocess_eq (src ++ more),hu,ended_append hl,← preprocess_eq,hpre,
    decode_append_of_boundary (.inl ⟨10,hl,by decide⟩)]

end Append

theorem endsLine_ended (b : Bytes) : EndsLine (decode (ended b)) := by
  unfold ended
  split_ifs
  · intro c hc
    cases hc
  · obtain ⟨cs,h⟩ := decode_endLine b
    intro c hc
    simpa [h,eq_comm] using hc

/-- The stream of the first part goes on with what is found behind it. -/
theorem items_append {src : Bytes} (hs : src.getLast? = some 10) (more : Bytes) :
    ∃ items last, Lexes ⟨decode (ended more),(streamOf src).endLine⟩ items last ∧
      (streamOf (src ++ more)).items = (streamOf src).items ++ items := by
  have h := TokenStream.lexes_ofChars (endsLine_preprocess src)
  obtain ⟨items,last,hm⟩ : ∃ items last,
      Lexes ⟨decode (ended more),(streamOf src).endLine⟩ items last :=
    ⟨_,_,TokenStream.lexes_collect (Nat.lt_succ_self _) (endsLine_ended more)⟩
  have hall := TokenStream.lexes_ofChars (endsLine_preprocess (src ++ more))
  rw [decode_preprocess_append hs] at hall
  refine ⟨items,last,hm,?_⟩
  rw [streamOf,decode_preprocess_append hs]
  exact (hall.unique (h.append hm)).1

theorem lineAfter?_append {feeds : Nat} {cs : List Char} (h : feeds < cs.count '\n')
    (ds : List Char) : lineAfter? feeds (cs ++ ds) = lineAfter? feeds cs := by
  have hm : '\n' ∈ cs := List.count_pos_iff.mp (by omega)
  induction feeds generalizing cs with
  | zero =>
    rw [lineAfter?,lineAfter?,takeWhile_append_of_mem (by simp) hm]
  | succ feeds ih =>
    have hc := count_dropWhile (p := (· ≠ '\n')) (x := '\n') (by simp) cs
    rw [lineAfter?,lineAfter?,dropWhile_append_of_mem (by simp) hm]
    cases hd : cs.dropWhile (· ≠ '\n') with
    | nil =>
      have hn : '\n' ∈ cs.dropWhile (· ≠ '\n') := mem_dropWhile (by simp) hm
      rw [hd] at hn
      cases hn
    | cons c rest =>
      obtain rfl : c = '\n' := by
        have hp := List.head?_dropWhile_not (· ≠ '\n') cs
        rw [hd] at hp
        simpa using hp
      rw [hd,List.count_cons_self] at hc
      have hr : feeds < rest.count '\n' := by omega
      exact ih hr (List.count_pos_iff.mp (by omega))

/-- A line of the first part is read as before. -/
theorem sourceLine_append {cs : List Char} {line : Int} (h : line < 1 + cs.count '\n')
    (ds : List Char) : sourceLine (cs ++ ds) line = sourceLine cs line := by
  unfold sourceLine
  by_cases hl : line < 1
  · rw [if_pos hl,if_pos hl]
  · rw [if_neg hl,if_neg hl,lineAfter?_append (by omega)]

end TeenyTiny

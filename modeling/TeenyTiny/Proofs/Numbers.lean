import Mathlib.Data.Nat.Digits.Defs
import Mathlib.Data.Rat.Init
import TeenyTiny.Proofs.Ast
import TeenyTiny.Proofs.Printing

/-! Numbers as C reads them. A number loses zeros in front of its integer part and nothing else, so
it keeps its value; and no zero is left there that would make it octal. -/
namespace TeenyTiny
open Text Lexer Generator

namespace Decimal

/-- The digits in front of the point. -/
def whole (n : List Char) : List Char := n.takeWhile Char.isDigit

/-- The digits behind the point, if there is one. -/
def fraction? (n : List Char) : Option (List Char) :=
  match n.dropWhile Char.isDigit with
  | '.' :: fs => some fs
  | _ => none

def digit (c : Char) : Nat := c.toNat - '0'.toNat

/-- The number that digits stand for, the last of them being the units. -/
def natural (ds : List Char) : Nat := Nat.ofDigits 10 (ds.reverse.map digit)

/-- The number that digits with or without a point stand for. -/
def value (n : List Char) : ℚ :=
  match fraction? n with
  | none => natural (whole n)
  | some fs => natural (whole n) + (natural fs : ℚ) / 10 ^ fs.length

example : value "007.25".toList = 29 / 4 := by decide +kernel

section Zeros
variable (i : Nat) (n : List Char)

theorem whole_zeros : whole (List.replicate i '0' ++ n) = List.replicate i '0' ++ whole n := by
  refine List.takeWhile_append_of_pos fun c hc => ?_
  rw [List.eq_of_mem_replicate hc]
  rfl

theorem fraction?_zeros : fraction? (List.replicate i '0' ++ n) = fraction? n := by
  unfold fraction?
  rw [List.dropWhile_append_of_pos]
  intro c hc
  rw [List.eq_of_mem_replicate hc]
  rfl

theorem natural_zeros (ds : List Char) : natural (List.replicate i '0' ++ ds) = natural ds := by
  unfold natural
  rw [List.reverse_append,List.reverse_replicate,List.map_append,List.map_replicate]
  exact Nat.ofDigits_append_replicate_zero _

theorem value_zeros : value (List.replicate i '0' ++ n) = value n := by
  rw [value,whole_zeros,natural_zeros,fraction?_zeros,value]

theorem cNumber_zeros : cNumber (List.replicate i '0' ++ n) = cNumber n := by
  unfold cNumber
  rw [List.dropWhile_append_of_pos]
  intro c hc
  simpa using List.eq_of_mem_replicate hc

end Zeros

end Decimal

open Decimal

section Numbers
variable {m n : List Char}

/-- Zeros are all that is taken away. -/
theorem exists_zeros_cNumber (h : IsNumber n) : ∃ i, n = List.replicate i '0' ++ cNumber n := by
  obtain ⟨c,rest,hc,hd⟩ := h.exists_head
  have hz : n.takeWhile (· = '0') = List.replicate (n.takeWhile (· = '0')).length '0' :=
    List.eq_replicate_iff.mpr ⟨rfl,fun c hc => by simpa using List.mem_takeWhile_imp hc⟩
  have hn : n = List.replicate (n.takeWhile (· = '0')).length '0' ++ n.dropWhile (· = '0') := by
    rw [← hz,List.takeWhile_append_dropWhile]
  generalize (n.takeWhile (· = '0')).length = k at hn
  -- where the last zero is put back there has been one
  have hlast : ∀ r, n = List.replicate k '0' ++ r → (∀ d ∈ r.head?, d.isDigit = false) →
      ∃ i, n = List.replicate i '0' ++ '0' :: r := by
    intro r hr hh
    cases k with
    | zero =>
      have hr : r = c :: rest := hr.symm.trans hc
      rw [hh c (by rw [hr]; rfl)] at hd
      cases hd
    | succ k => exact ⟨k,by rw [hr,List.replicate_succ']; simp⟩
  unfold cNumber
  cases hr : n.dropWhile (· = '0') with
  | nil => exact hlast [] (hr ▸ hn) (by simp)
  | cons d r =>
    rw [hr] at hn
    dsimp only
    split_ifs with hp
    · exact hlast _ hn (by simp [hp])
    · exact ⟨k,hn⟩

/-- A zero is left in front of the point or nowhere at the beginning. -/
theorem whole_cNumber (h : IsNumber n) : whole (cNumber n) = ['0'] ∨
    ∃ d ds, whole (cNumber n) = d :: ds ∧ d ≠ '0' := by
  unfold cNumber
  cases hr : n.dropWhile (· = '0') with
  | nil => exact .inl rfl
  | cons d r =>
    have hz : d ≠ '0' := by simpa [hr] using head_dropWhile (· = '0') n
    have hm : d ∈ n := (List.dropWhile_suffix _).subset (hr ▸ List.mem_cons_self)
    dsimp only
    split_ifs with hp
    · rw [hp]
      exact .inl rfl
    · have hd : d.isDigit = true := (h.isDigit_or d hm).resolve_right hp
      exact .inr ⟨d,_,List.takeWhile_cons_of_pos hd,hz⟩

/-- A number is the only token of its own text. -/
theorem IsNumber.upToFault_ofChars (h : IsNumber n) :
    (TokenStream.ofChars n).upToFault = ([⟨.number,n,1⟩,⟨.eof,[],1⟩],none) := by
  have hnil : ∀ c ∈ ([] : List Char), isGap c = true := by simp
  have hgap : skipGap n = n := by
    have hw : (Piece.mk .number n).WellFormed := h
    obtain ⟨c,cs,hc,hg⟩ := hw.exists_spelling (by simp)
    refine skipGap_append hnil fun d hd => ?_
    have hc : n = c :: cs := hc
    obtain rfl : c = d := by simpa [hc] using hd
    exact hg
  have hread : read n = ⟨.ok (.number,n),[]⟩ := by
    simpa using read_number h (r := []) (by simp)
  have hnext : (Cursor.start n).next = (.ok ⟨.number,n,1⟩,⟨[],1⟩) := by
    unfold Cursor.next Cursor.start
    simp only [hgap,hread]
    rfl
  obtain ⟨c,rest,rfl,-⟩ := h.exists_head
  have hs : TokenStream.ofChars (c :: rest) = ⟨[.ok ⟨.number,c :: rest,1⟩],1⟩ := by
    unfold TokenStream.ofChars
    rw [TokenStream.collect_ok hnext (by simp),List.length_cons,
      TokenStream.collect_eof (Cursor.next_gap hnil 1) rfl]
  rw [hs]
  rfl

/-- Numbers are the same to C when they differ in the zeros at the beginning only. -/
theorem cNumber_eq_iff (hm : IsNumber m) (hn : IsNumber n) : cNumber m = cNumber n ↔
    ∃ i j core, m = List.replicate i '0' ++ core ∧ n = List.replicate j '0' ++ core := by
  constructor
  · intro h
    obtain ⟨i,hi⟩ := exists_zeros_cNumber hm
    obtain ⟨j,hj⟩ := exists_zeros_cNumber hn
    exact ⟨i,j,cNumber n,h ▸ hi,hj⟩
  · rintro ⟨i,j,core,rfl,rfl⟩
    rw [cNumber_zeros,cNumber_zeros]

/-- A number in the form that C reads has the same value and is kept when it is read again; two
numbers have the same form exactly when they differ in zeros at the beginning. -/
theorem cNumber_normal (hm : IsNumber m) (hn : IsNumber n) :
    (whole (cNumber n) = ['0'] ∨ ∃ d ds, whole (cNumber n) = d :: ds ∧ d ≠ '0') ∧
      fraction? (cNumber n) = fraction? n ∧ value (cNumber n) = value n ∧
      (TokenStream.ofChars (decode (encode (cNumber n)))).upToFault =
        ([⟨.number,cNumber n,1⟩,⟨.eof,[],1⟩],none) ∧
      cNumber (cNumber n) = cNumber n ∧
      (cNumber m = cNumber n ↔
        ∃ i j core, m = List.replicate i '0' ++ core ∧ n = List.replicate j '0' ++ core) := by
  obtain ⟨i,hi⟩ := exists_zeros_cNumber hn
  have hfraction := fraction?_zeros i (cNumber n)
  have hvalue := value_zeros i (cNumber n)
  have hagain := cNumber_zeros i (cNumber n)
  rw [← hi] at hfraction hvalue hagain
  refine ⟨whole_cNumber hn,hfraction.symm,hvalue.symm,?_,hagain.symm,cNumber_eq_iff hm hn⟩
  rw [decode_encode]
  exact hn.cNumber.upToFault_ofChars

end Numbers

/-- Two spellings of a number with a fraction. -/
theorem cNumber_normal_of_spellings :
    let m := "7.250".toList
    let n := "007.250".toList
    IsNumber m ∧ IsNumber n ∧
      (whole (cNumber n) = ['0'] ∨ ∃ d ds, whole (cNumber n) = d :: ds ∧ d ≠ '0') ∧
      fraction? (cNumber n) = fraction? n ∧ value (cNumber n) = value n ∧
      (TokenStream.ofChars (decode (encode (cNumber n)))).upToFault =
        ([⟨.number,cNumber n,1⟩,⟨.eof,[],1⟩],none) ∧
      cNumber (cNumber n) = cNumber n ∧
      (cNumber m = cNumber n ↔
        ∃ i j core, m = List.replicate i '0' ++ core ∧ n = List.replicate j '0' ++ core) := by
  intro m n
  have hf : ∀ d ∈ "250".toList, d.isDigit = true := List.all_eq_true.mp rfl
  have h₁ : ∀ d ∈ "7".toList, d.isDigit = true := List.all_eq_true.mp rfl
  have h₂ : ∀ d ∈ "007".toList, d.isDigit = true := List.all_eq_true.mp rfl
  have hm : IsNumber m := .pointed (by simp) h₁ (by simp) hf
  have hn : IsNumber n := .pointed (by simp) h₂ (by simp) hf
  exact ⟨hm,hn,cNumber_normal hm hn⟩

end TeenyTiny

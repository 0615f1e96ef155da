import TeenyTiny.Proofs.LexicalFaults
import TeenyTiny.Proofs.Seam

/-! Text behind a source that has failed. The run over the longer source goes beside the run over
the first part as long as that one has tokens left. The windows differ near the seam, where one of
them shows the end and the other shows what follows; but a verdict depends on the current token
only, so a fault that is found before the end is found in both runs. -/
namespace TeenyTiny
open Text Generator

namespace Generator
variable {g g' g₁ : Generator} {goal : Goal} {goals more : List Goal} {fault : Fault}
  {r : Outcome Unit}

theorem Does.tail (hd : Does (goal :: goals) g r) (h : perform goal g = .ok more g') :
    Does (more ++ goals) g' r := by
  cases hd with
  | step h' rest =>
    rw [h] at h'
    cases h'
    exact rest
  | stop h' =>
    rw [h] at h'
    cases h'

theorem Does.eq_error (hd : Does (goal :: goals) g r) (h : perform goal g = .error fault g') :
    r = .error fault g' := by
  cases hd with
  | step h' =>
    rw [h] at h'
    cases h'
  | stop h' =>
    rw [h] at h'
    cases h'
    rfl

theorem Shows.current_eq {t : Token} {ahead : List (Except Fault Token)}
    (hs : g.Shows (.ok t :: ahead)) : g.current = t := by
  rcases hs.current with ⟨rest,h⟩ | ⟨h,-⟩
  · cases h
    rfl
  · cases h

section Twin
variable {ts : List Token} (h : Twin g g₁) (hs : g₁.Shows (ts.map .ok))
include h hs

/-- What is done in a state is done in its twin, if no fault is ahead there. -/
theorem Twin.perform_ok (hp : perform goal g = .ok more g') :
    ∃ g₁', perform goal g₁ = .ok more g₁' ∧ g₁'.symbols = g'.symbols ∧
      g₁'.listing = g'.listing ∧
      g₁'.Shows ((if (verdict goal g).passes then ts.tail else ts).map .ok) := by
  have hdo : ∃ g₁', perform goal g₁ = .ok more g₁' ∧ g₁'.symbols = g'.symbols ∧
      g₁'.listing = g'.listing := by
    obtain ⟨g₂,symbols,listing,hr,rfl,⟨hv,-⟩ | ⟨hv,-⟩⟩ := Generator.perform_ok hp
    · obtain ⟨g₃,ha⟩ := exists_advance_of_window hs (by simp)
      rw [h.perform_eq,Verdict.follow,if_pos hv,ha,hr]
      exact ⟨_,rfl,rfl,rfl⟩
    · rw [h.perform_eq,Verdict.follow,if_neg (by simp [hv]),hr]
      exact ⟨_,rfl,rfl,rfl⟩
  obtain ⟨g₁',hp₁,hsym,hlist⟩ := hdo
  have hpasses : (verdict goal g₁).passes = (verdict goal g).passes := by
    have hplan := plan?_of_ok hp₁
    rw [h.current,plan?_of_ok hp] at hplan
    exact (Prod.mk.inj (Option.some_inj.mp hplan)).1.symm
  have hs₁ := (hs.perform hp₁).1
  rw [hpasses,← List.map_tail,← apply_ite (List.map Except.ok)] at hs₁
  exact ⟨g₁',hp₁,hsym,hlist,hs₁⟩

theorem Twin.perform_error (hv : (verdict goal g).result = .error fault) :
    ∃ g₁', perform goal g₁ = .error fault g₁' := by
  obtain ⟨g₂,ha⟩ := exists_advance_of_window hs (by simp)
  rw [h.perform_eq,Verdict.follow]
  split_ifs
  · rw [ha,hv]
    exact ⟨_,rfl⟩
  · rw [hv]
    exact ⟨_,rfl⟩

end Twin

/-- Some of the tokens are ahead. As long as there are any, the same goals lead to `r` from a twin
that has others behind them. -/
def Beside (tokens behind : List Token) (r : Outcome Unit) (goals : List Goal) (g : Generator) :
    Prop :=
  ∃ us, us <:+ tokens ∧ g.Shows (us.map .ok) ∧
    (us ≠ [] → ∃ g₁, Twin g g₁ ∧ g₁.Shows ((us ++ behind).map .ok) ∧ Does goals g₁ r)

section Beside
variable {tokens behind : List Token}

theorem Beside.step (h : Beside tokens behind r (goal :: goals) g)
    (hp : perform goal g = .ok more g') : Beside tokens behind r (more ++ goals) g' := by
  obtain ⟨us,hus,hs,htwin⟩ := h
  have hs' : g'.Shows ((if (verdict goal g).passes then us.tail else us).map .ok) := by
    rw [apply_ite (List.map Except.ok),List.map_tail]
    exact (hs.perform hp).1
  have hsuf : (if (verdict goal g).passes then us.tail else us) <:+ us := by
    split_ifs
    · exact List.tail_suffix us
    · exact List.suffix_rfl
  refine ⟨_,hsuf.trans hus,hs',fun hne => ?_⟩
  have hne' : us ≠ [] := by
    rintro rfl
    simp at hne
  obtain ⟨g₁,ht,hs₁,hd⟩ := htwin hne'
  obtain ⟨g₁',hp₁,hsym,hlist,hs₁'⟩ := ht.perform_ok hs₁ hp
  have hrest : (if (verdict goal g).passes then (us ++ behind).tail else us ++ behind) =
      (if (verdict goal g).passes then us.tail else us) ++ behind := by
    rw [List.tail_append_of_ne_nil hne']
    split_ifs <;> rfl
  rw [hrest] at hs₁'
  refine ⟨g₁',⟨?_,hsym,hlist⟩,hs₁',hd.tail hp₁⟩
  -- both windows show the first token that is left
  obtain ⟨u,rest,hu⟩ := List.exists_cons_of_ne_nil hne
  rw [hu] at hs' hs₁'
  rw [hs'.current_eq,hs₁'.current_eq]

/-- A fault that is found before the end is found beside as well. -/
theorem Beside.fails (h : Beside tokens behind r (goal :: goals) g)
    (hf : perform goal g = .error fault g') (hl : fault.cause.rule? ≠ some .labelDeclared)
    (he : fault.cause.isAtEnd = false) :
    (∃ g₁, r = .error fault g₁) ∧ ∃ t ∈ tokens, fault.line = t.line := by
  obtain ⟨us,hus,hs,htwin⟩ := h
  have hv : (verdict goal g).result = .error fault := by
    rcases Generator.perform_error hf with ha | hv
    · obtain ⟨g₂,ha'⟩ := exists_advance_of_window hs (by simp)
      rw [ha] at ha'
      cases ha'
    · exact hv
  have hb : g.current.Blamed fault := by
    refine blamed_of_verdict ?_ hv
    rintro rfl
    exact hl (labelDeclared_of_resolve hv)
  cases us with
  | nil =>
    -- at the end token only syntax is at fault
    rcases hs.current with ⟨rest,hr⟩ | ⟨-,hc⟩
    · cases hr
    rw [hc] at hb
    cases hb with
    | grammar ha =>
      change GrammarCause.isAtEnd _ = false at he
      rw [he] at ha
      cases ha
    | name hk => cases hk
  | cons u us =>
    obtain ⟨g₁,ht,hs₁,hd⟩ := htwin (by simp)
    obtain ⟨g₁',hp₁⟩ := ht.perform_error hs₁ hv
    refine ⟨⟨g₁',hd.eq_error hp₁⟩,u,hus.subset (by simp),?_⟩
    rw [hb.line_eq,hs.current_eq]

end Beside

/-- A fault that is found in a stream, but not at its end, is found in every longer one. -/
theorem program_extends {stream stream₁ : TokenStream} {us vs : List Token}
    (hi : stream.items = us.map .ok) (hi₁ : stream₁.items = (us ++ vs).map .ok)
    (h : program { stream := stream } = .error fault g')
    (hl : fault.cause.rule? ≠ some .labelDeclared) (he : fault.cause.isAtEnd = false) :
    (∃ g₁, program { stream := stream₁ } = .error fault g₁) ∧ ∃ t ∈ us, fault.line = t.line := by
  obtain ⟨g,hd,hs,hsym,hlist⟩ := exists_opened hi
  obtain ⟨g₁,hd₁,hs₁,hsym₁,hlist₁⟩ := exists_opened hi₁
  have hs : (opened g).Shows (us.map .ok) := hs
  have hs₁ : (opened g₁).Shows ((us ++ vs).map .ok) := hs₁
  have hb : Beside us vs (program { stream := stream₁ }) [.feeds,.statements .eof,.ending]
      (opened g) := by
    refine ⟨us,List.suffix_rfl,hs,fun hne => ⟨opened g₁,⟨?_,?_,?_⟩,hs₁,hd₁⟩⟩
    · obtain ⟨u,rest,rfl⟩ := List.exists_cons_of_ne_nil hne
      rw [hs.current_eq,hs₁.current_eq]
    · exact hsym₁.trans hsym.symm
    · rw [opened,opened,hlist,hlist₁]
  rw [h] at hd
  obtain ⟨goal,goals,g₂,hb₂,hf⟩ := hd.fails (Beside us vs _) hb fun _ _ _ _ _ hb hp => hb.step hp
  exact hb₂.fails hf hl he

end Generator

/-- An error that is not about the end of the source stays when the source is extended. -/
theorem compileText_append_error {src more : Bytes} {tokens : List Token} {d : Diagnostic}
    (hs : src.getLast? = some 10)
    (ht : (TokenStream.ofChars (decode (preprocess (src ++ more)))).upToFault = (tokens,none))
    (h : (compileText src).2 = .error (.diagnostic d))
    (hl : d.cause.rule? ≠ some .labelDeclared) (he : d.cause.isAtEnd = false) :
    (compileText (src ++ more)).2 = .error (.diagnostic d) := by
  obtain ⟨fault,g,hg,rfl⟩ := compileText_error_iff.mp h
  obtain ⟨ws,hi,-⟩ := TokenStream.upToFault_eq_none.mp ht
  obtain ⟨items,last,-,happ⟩ := items_append hs more
  obtain ⟨us,vs,rfl,hus,-⟩ := List.map_eq_append_iff.mp (hi.symm.trans happ)
  obtain ⟨⟨g₁,hg₁⟩,t,htm,hline⟩ := program_extends hus.symm hi hg hl he
  refine compileText_error_iff.mpr ⟨fault,g₁,hg₁,?_⟩
  -- the line of the fault is one of the first part
  have hlex := TokenStream.lexes_ofChars (endsLine_preprocess src)
  have hlt : fault.line < 1 + (decode (preprocess src)).count '\n' := by
    have hm : .ok t ∈ (streamOf src).items := by simp [← hus,htm]
    have hlast : (streamOf src).endLine = 1 + (decode (preprocess src)).count '\n' := hlex.last_eq
    have hlt : (t.line : Int) < (streamOf src).endLine := hlex.line_lt _ hm
    omega
  rw [decode_preprocess_append hs,Fault.explain,Fault.explain,sourceLine_append hlt]

/-- A jump to a label is missing its name; the label comes behind. -/
theorem extended_after_missing_name :
    let src : Bytes := "GOTO\n"
    let more : Bytes := "LABEL end"
    let tokens : List Token := [⟨.keyword .goto,"GOTO".toList,1⟩,⟨.newline,['\n'],1⟩,
      ⟨.keyword .label,"LABEL".toList,2⟩,⟨.ident,"end".toList,2⟩,⟨.newline,['\n'],2⟩,⟨.eof,[],3⟩]
    let d : Diagnostic := ⟨⟨1,.grammar (.expected .ident .newline "\n")⟩,"GOTO"⟩
    src.getLast? = some 10 ∧
      (TokenStream.ofChars (decode (preprocess (src ++ more)))).upToFault = (tokens,none) ∧
      (compileText src).2 = .error (.diagnostic d) ∧ d.cause.rule? ≠ some .labelDeclared ∧
      d.cause.isAtEnd = false ∧ (compileText (src ++ more)).2 = .error (.diagnostic d) := by
  intro src more tokens d
  have ht : (TokenStream.ofChars (decode (preprocess (src ++ more)))).upToFault = (tokens,none) :=
    Prod.ext (by decide +kernel) (by decide +kernel)
  have h : (compileText src).2 = .error (.diagnostic d) :=
    error_of_diagnostic? (by decide +kernel)
  have hl : d.cause.rule? ≠ some .labelDeclared := by decide
  exact ⟨rfl,ht,h,hl,rfl,compileText_append_error rfl ht h hl rfl⟩

end TeenyTiny

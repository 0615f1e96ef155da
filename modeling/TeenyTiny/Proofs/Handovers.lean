import Mathlib.Data.List.Basic
import TeenyTiny.Listing

/-! Calls on a listing. Text is added to both regions in any order, and the listing may be handed
over again and again: the first handover writes the header and then the body in one piece, and no
later one writes anything, whatever became of the first. -/
namespace TeenyTiny
open Text

namespace Listing

/-- A call on a listing. A handover names the writer that it goes to. -/
inductive Call (ω : Type) where
  | headerLine (text : Bytes)
  | emit (text : Bytes)
  | emitLine (text : Bytes)
  | finalize (writer : ω)

namespace Call
variable {ω : Type}

@[simp] def isHandover : Call ω → Bool
  | finalize _ => true
  | _ => false

/-- The line that a call adds to the header. -/
@[simp] def headerPart? : Call ω → Option Bytes
  | headerLine text => some (text ++ [10])
  | _ => none

/-- The fragment that a call adds to the body. -/
@[simp] def bodyPart? : Call ω → Option Bytes
  | emit text => some text
  | emitLine text => some (text ++ [10])
  | _ => none

/-- What a call gives back when the text has been handed over before. -/
@[simp] def late {ε : Type} : Call ω → Option (Written (DeliveryError ε))
  | finalize _ => some ⟨0,some .finalized⟩
  | _ => none

end Call

section Calls
variable {ω : Type}

/-- The lines that calls add to the header, in the order of the calls. -/
def headerLines (cs : List (Call ω)) : List Bytes := cs.filterMap Call.headerPart?

/-- The fragments that calls add to the body, in the order of the calls. -/
def fragments (cs : List (Call ω)) : List Bytes := cs.filterMap Call.bodyPart?

theorem flatten_headerLines_cons (c : Call ω) (cs : List (Call ω)) :
    (headerLines (c :: cs)).flatten = c.headerPart?.getD [] ++ (headerLines cs).flatten := by
  cases c <;> rfl

theorem flatten_fragments_cons (c : Call ω) (cs : List (Call ω)) :
    (fragments (c :: cs)).flatten = c.bodyPart?.getD [] ++ (fragments cs).flatten := by
  cases c <;> rfl

end Calls

section Run
variable {m : Type → Type} [Monad m] {ε ω : Type} (write : ω → ByteArray → m (Written ε))

/-- A call, with what it gives back: nothing, or what became of the handover. -/
def call (l : Listing) : Call ω → m (Listing × Option (Written (DeliveryError ε)))
  | .headerLine text => pure (l.headerLine text,none)
  | .emit text => pure (l.emit text,none)
  | .emitLine text => pure (l.emitLine text,none)
  | .finalize w => do
    let (l,written) ← l.finalize (write w)
    pure (l,some written)

/-- What calls give back, one after the other. -/
def answers : Listing → List (Call ω) → m (List (Option (Written (DeliveryError ε))))
  | _,[] => pure []
  | l,c :: cs => do
    let (l,answer) ← l.call write c
    let later ← answers l cs
    pure (answer :: later)

variable {l : Listing}

/-- A call that adds text to a region leaves the other one, and writes nothing. -/
theorem call_text (l : Listing) {c : Call ω} (hc : c.isHandover = false) : ∃ l' : Listing,
    l.call write c = pure (l',none) ∧ l'.isFinalized = l.isFinalized ∧
      l'.header = l.header ++ c.headerPart?.getD [] ∧ l'.body = l.body ++ c.bodyPart?.getD [] := by
  cases c with
  | headerLine text => exact ⟨l.headerLine text,rfl,rfl,by simp,by simp⟩
  | emit text => exact ⟨l.emit text,rfl,rfl,by simp,by simp⟩
  | emitLine text => exact ⟨l.emitLine text,rfl,rfl,by simp [emitLine],by simp [emitLine]⟩
  | finalize w => cases hc

theorem block_eq (l : Listing) : l.block = (l.header ++ l.body).toByteArray := by
  apply ByteArray.ext
  apply Array.toList_inj.mp
  rw [toList_block,List.toList_data_toByteArray]
  rfl

variable [LawfulMonad m]

theorem answers_cons_of_pure {c : Call ω} {l' : Listing}
    {answer : Option (Written (DeliveryError ε))} (h : l.call write c = pure (l',answer))
    (cs : List (Call ω)) :
    l.answers write (c :: cs) = l'.answers write cs >>= fun later => pure (answer :: later) := by
  rw [answers,h,pure_bind]

/-- Texts are kept in the order of the calls, however the calls to the two regions alternate. -/
theorem answers_text (l : Listing) {cs : List (Call ω)} (hc : ∀ c ∈ cs, c.isHandover = false) :
    ∃ l' : Listing, l'.isFinalized = l.isFinalized ∧
      l'.header = l.header ++ (headerLines cs).flatten ∧
      l'.body = l.body ++ (fragments cs).flatten ∧
      ∀ more, l.answers write (cs ++ more) =
        l'.answers write more >>= fun later => pure (cs.map (fun _ => none) ++ later) := by
  -- the calls behind the first one start from the listing that it leaves
  induction cs generalizing l with
  | nil => exact ⟨l,rfl,by simp [headerLines],by simp [fragments],fun more => by simp⟩
  | cons c cs ih =>
    obtain ⟨l₁,hcall,hf₁,hh₁,hb₁⟩ := call_text write l (hc c (by simp))
    obtain ⟨l₂,hf₂,hh₂,hb₂,hrun⟩ := ih l₁ (fun d hd => hc d (by simp [hd]))
    refine ⟨l₂,hf₂.trans hf₁,?_,?_,?_⟩
    · rw [hh₂,hh₁,flatten_headerLines_cons,List.append_assoc]
    · rw [hb₂,hb₁,flatten_fragments_cons,List.append_assoc]
    · intro more
      rw [List.cons_append,answers_cons_of_pure write hcall,hrun]
      simp

/-- A listing that has been handed over writes nothing more. -/
theorem call_late (h : l.isFinalized = true) (c : Call ω) : ∃ l' : Listing,
    l.call write c = pure (l',c.late) ∧ l'.isFinalized = true := by
  cases c with
  | headerLine text => exact ⟨l.headerLine text,rfl,h⟩
  | emit text => exact ⟨l.emit text,rfl,h⟩
  | emitLine text => exact ⟨l.emitLine text,rfl,h⟩
  | finalize w => exact ⟨l,by simp [call,Listing.finalize,h],h⟩

theorem answers_late (h : l.isFinalized = true) (cs : List (Call ω)) :
    l.answers write cs = pure (cs.map Call.late) := by
  induction cs generalizing l with
  | nil => rfl
  | cons c cs ih =>
    obtain ⟨l',hcall,hf⟩ := call_late write h c
    rw [answers_cons_of_pure write hcall,ih hf,pure_bind]
    rfl

/-- The first handover is one write of the whole text; the calls behind it come too late. -/
theorem answers_finalize (h : l.isFinalized = false) (w : ω) (after : List (Call ω)) :
    l.answers write (.finalize w :: after) =
      write w (l.header ++ l.body).toByteArray >>= fun written =>
        pure (some ⟨written.accepted,written.failure.map .write⟩ :: after.map Call.late) := by
  rw [answers,call,Listing.finalize,h,block_eq]
  simp [answers_late]

/-- Any calls up to a handover, and any behind it. -/
theorem answers_new {before : List (Call ω)} (hb : ∀ c ∈ before, c.isHandover = false) (w : ω)
    (after : List (Call ω)) : answers write {} (before ++ .finalize w :: after) =
      write w ((headerLines before).flatten ++ (fragments before).flatten).toByteArray >>=
        fun written => pure (before.map (fun _ => none) ++
          some ⟨written.accepted,written.failure.map .write⟩ :: after.map Call.late) := by
  obtain ⟨l,hf,hh,hbody,hrun⟩ := answers_text write {} hb
  rw [hrun,answers_finalize write hf,hh,hbody]
  simp [header,body]

/-- Without a handover nothing is written. -/
theorem answers_unfinished {cs : List (Call ω)} (hc : ∀ c ∈ cs, c.isHandover = false) :
    answers write {} cs = pure (cs.map fun _ => none) := by
  obtain ⟨l,-,-,-,hrun⟩ := answers_text write {} hc
  have hnil := hrun []
  rw [List.append_nil] at hnil
  rw [hnil]
  simp [answers]

end Run

section Record
variable {ε ω : Type}

/-- Writers that note each text they are given, and then answer as they like. -/
def noting (answer : ω → ByteArray → Written ε) (w : ω) (block : ByteArray) :
    StateM (List Bytes) (Written ε) := do
  modify (· ++ [block.data.toList])
  return answer w block

/-- The texts that calls on a new listing write, one for each write. -/
def writes (answer : ω → ByteArray → Written ε) (cs : List (Call ω)) : List Bytes :=
  ((answers (noting answer) {} cs).run []).2

theorem writes_new (answer : ω → ByteArray → Written ε) {before : List (Call ω)}
    (hb : ∀ c ∈ before, c.isHandover = false) (w : ω) (after : List (Call ω)) :
    writes answer (before ++ .finalize w :: after) =
      [(headerLines before).flatten ++ (fragments before).flatten] := by
  rw [writes,answers_new _ hb]
  change [(List.toByteArray _).data.toList] = _
  rw [List.toList_data_toByteArray]

end Record

/-- The first handover is one write of all header lines and then all fragments given before it, each
in the order of the calls; every later one is refused and writes nothing. -/
theorem handed_over_once {ε ω : Type} :
    (∀ {m : Type → Type} [Monad m] [LawfulMonad m] (write : ω → ByteArray → m (Written ε))
      (before after : List (Call ω)) (w : ω), (∀ c ∈ before, c.isHandover = false) →
      answers write {} (before ++ .finalize w :: after) =
        write w ((headerLines before).flatten ++ (fragments before).flatten).toByteArray >>=
          fun written => pure (before.map (fun _ => none) ++
            some ⟨written.accepted,written.failure.map .write⟩ :: after.map Call.late)) ∧
    (∀ {m : Type → Type} [Monad m] [LawfulMonad m] (write : ω → ByteArray → m (Written ε))
      (calls : List (Call ω)), (∀ c ∈ calls, c.isHandover = false) →
      answers write {} calls = pure (calls.map fun _ => none)) ∧
    ∀ (answer answer' : ω → ByteArray → Written ε) (before before' after after' : List (Call ω))
      (w w' : ω), (∀ c ∈ before, c.isHandover = false) → (∀ c ∈ before', c.isHandover = false) →
      headerLines before = headerLines before' → fragments before = fragments before' →
      writes answer (before ++ .finalize w :: after) =
          [(headerLines before).flatten ++ (fragments before).flatten] ∧
        writes answer (before ++ .finalize w :: after) =
          writes answer' (before' ++ .finalize w' :: after') := by
  refine ⟨?_,?_,?_⟩
  · intro m _ _ write before after w hb
    exact answers_new write hb w after
  · intro m _ _ write calls hc
    exact answers_unfinished write hc
  · intro answer answer' before before' after after' w w' hb hb' hh hf
    have h₁ := writes_new answer hb w after
    have h₂ := writes_new answer' hb' w' after'
    refine ⟨h₁,?_⟩
    rw [h₁,h₂,hh,hf]

/-- A statement with a declaration made in the middle of it, and the same declaration made first. -/
def interleaved : List (Call Bool) := [.emit "x",.headerLine "float x;",.emitLine " = 1;"]

def inSequence : List (Call Bool) := [.headerLine "float x;",.emit "x",.emitLine " = 1;"]

/-- A writer that takes three bytes and then fails, and one that takes everything. -/
def narrow (isNarrow : Bool) (block : ByteArray) : Written Bytes :=
  if isNarrow = true then ⟨min 3 block.size,some "full"⟩ else ⟨block.size,none⟩

theorem handed_over_to_narrow_writer :
    (answers (noting narrow) {} (interleaved ++ [.finalize true,.emit "y",.finalize false]) =
        noting narrow true (ofString "float x;\nx = 1;\n").toByteArray >>= fun written =>
          pure [none,none,none,some ⟨written.accepted,written.failure.map .write⟩,none,
            some ⟨0,some .finalized⟩]) ∧
      answers (noting narrow) {} interleaved = pure [none,none,none] ∧
      writes narrow (interleaved ++ [.finalize true,.emit "y",.finalize false]) =
        [("float x;\nx = 1;\n" : Bytes)] ∧
      writes narrow (interleaved ++ [.finalize true,.emit "y",.finalize false]) =
        writes narrow (inSequence ++ [.finalize false]) := by
  have hi : ∀ c ∈ interleaved, c.isHandover = false := by simp [interleaved]
  have hs : ∀ c ∈ inSequence, c.isHandover = false := by simp [inSequence]
  have ht : (headerLines interleaved).flatten ++ (fragments interleaved).flatten =
      ofString "float x;\nx = 1;\n" := by decide
  have ha := handed_over_once.1 (noting narrow) interleaved [.emit "y",.finalize false] true hi
  have hw := handed_over_once.2.2 narrow narrow interleaved inSequence
    [.emit "y",.finalize false] [] true false hi hs rfl rfl
  rw [ht] at ha hw
  exact ⟨ha,handed_over_once.2.1 (noting narrow) interleaved hi,hw⟩

end Listing
end TeenyTiny

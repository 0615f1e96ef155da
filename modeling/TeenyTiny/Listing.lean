import TeenyTiny.Text.Utf8

/-! The C text under construction. It has two regions, so that declarations can be added above
statements that are written already, and it is handed over in one piece and only once. -/
namespace TeenyTiny

/-- What became of one write: how many bytes were accepted, and what went wrong. -/
structure Written (ε : Type) where
  accepted : Nat
  failure : Option ε

/-- Why a listing could not be handed over. -/
inductive DeliveryError (ε : Type) where
  | finalized
  | write (cause : ε)

def DeliveryError.message {ε : Type} (message : ε → Bytes) : DeliveryError ε → Bytes
  | finalized => "emitter already finalized"
  | write cause => "write generated code: " ++ message cause

/-- The parts of both regions, the last one first. -/
structure Listing where
  headerParts : List Bytes := []
  bodyParts : List Bytes := []
  isFinalized : Bool := false
  deriving DecidableEq, Repr

namespace Listing

def headerLine (l : Listing) (text : Bytes) : Listing :=
  { l with headerParts := (text ++ [10]) :: l.headerParts }

def emit (l : Listing) (text : Bytes) : Listing :=
  { l with bodyParts := text :: l.bodyParts }

def emitLine (l : Listing) (text : Bytes) : Listing := l.emit (text ++ [10])

def header (l : Listing) : Bytes := l.headerParts.reverse.flatten

def body (l : Listing) : Bytes := l.bodyParts.reverse.flatten

def code (l : Listing) : Bytes := l.header ++ l.body

@[simp] theorem header_headerLine (l : Listing) (text : Bytes) :
    (l.headerLine text).header = l.header ++ (text ++ [10]) := by simp [header,headerLine]

@[simp] theorem body_headerLine (l : Listing) (text : Bytes) :
    (l.headerLine text).body = l.body := rfl

@[simp] theorem header_emit (l : Listing) (text : Bytes) : (l.emit text).header = l.header := rfl

@[simp] theorem body_emit (l : Listing) (text : Bytes) :
    (l.emit text).body = l.body ++ text := by simp [body,emit]

/-- A block with the bytes of all parts behind it. -/
def appendParts (block : ByteArray) (parts : List Bytes) : ByteArray :=
  parts.foldl (fun block part => part.foldl ByteArray.push block) block

/-- The whole text as one block. -/
def block (l : Listing) : ByteArray :=
  appendParts (appendParts ByteArray.empty l.headerParts.reverse) l.bodyParts.reverse

theorem toList_foldl_push (part : Bytes) (block : ByteArray) :
    (part.foldl ByteArray.push block).data.toList = block.data.toList ++ part := by
  induction part generalizing block with
  | nil => simp
  | cons b rest ih =>
    have step : (block.push b).data.toList = block.data.toList ++ [b] := by simp
    rw [List.foldl_cons,ih,step,List.append_assoc]
    rfl

@[simp] theorem toList_appendParts (parts : List Bytes) (block : ByteArray) :
    (appendParts block parts).data.toList = block.data.toList ++ parts.flatten := by
  induction parts generalizing block with
  | nil => simp [appendParts]
  | cons part rest ih =>
    have step : appendParts block (part :: rest) =
        appendParts (part.foldl ByteArray.push block) rest := rfl
    rw [step,ih,toList_foldl_push,List.flatten_cons,List.append_assoc]

/-- The block holds the header and then the body. -/
@[simp] theorem toList_block (l : Listing) : l.block.data.toList = l.code := by
  simp [block,code,header,body]

/-- Hands the text over in one write. Whatever becomes of the write, there is no second one. -/
def finalize {m : Type → Type} [Monad m] {ε : Type} (write : ByteArray → m (Written ε))
    (l : Listing) : m (Listing × Written (DeliveryError ε)) :=
  if l.isFinalized then pure (l,⟨0,some .finalized⟩)
  else do
    let written ← write l.block
    pure ({ l with isFinalized := true },⟨written.accepted,written.failure.map .write⟩)

end Listing
end TeenyTiny

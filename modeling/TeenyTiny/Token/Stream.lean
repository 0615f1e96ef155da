import TeenyTiny.Token.Lexer

/-! The whole sequence of lexer results of a source: finitely many tokens and faults, and then
the end token for ever. -/
namespace TeenyTiny
open Text

structure TokenStream where
  items : List (Except Fault Token)
  endLine : Nat

namespace TokenStream

def endToken (s : TokenStream) : Token := ⟨.eof,[],s.endLine⟩

/-- The next result and what follows it. -/
def pull (s : TokenStream) : Except Fault Token × TokenStream :=
  match s.items with
  | [] => (.ok s.endToken,s)
  | item :: rest => (item,{ s with items := rest })

/-- Steps the cursor up to the end token, at most `fuel` times; `found` is in reverse order. -/
def collect : (fuel : Nat) → (found : List (Except Fault Token)) → Cursor → TokenStream
  | 0,found,cursor => ⟨found.reverse,cursor.line⟩
  | fuel + 1,found,cursor =>
    match cursor.next with
    | (.ok token,after) =>
      if token.kind = .eof then ⟨found.reverse,token.line⟩
      else collect fuel (.ok token :: found) after
    | (.error fault,after) => collect fuel (.error fault :: found) after

/-- The stream of a source. Each step before the end reads at least one character. -/
def ofChars (source : List Char) : TokenStream :=
  collect (source.length + 1) [] (Cursor.start source)

/-- The tokens up to the first fault, and the fault; `found` is in reverse order. -/
def splitAtFault (last : Token) :
    (found : List Token) → List (Except Fault Token) → List Token × Option Fault
  | found,[] => ((last :: found).reverse,none)
  | found,.ok token :: rest => splitAtFault last (token :: found) rest
  | found,.error fault :: _ => (found.reverse,some fault)

/-- The tokens before the first fault, the end token included if there is none, and the fault. -/
def upToFault (s : TokenStream) : List Token × Option Fault := splitAtFault s.endToken [] s.items

end TokenStream
end TeenyTiny

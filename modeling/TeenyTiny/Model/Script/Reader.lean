import TeenyTiny.Model.Script

/-! Reading scripts. A script is read a line at a time, as it runs, so that a fault in a later line
does not keep the lines before it from running. -/
namespace TeenyTiny.Model.Script
open Text

inductive Token where
  | endOfFile
  | newline
  | operator (text : String)
  | redirect (descriptor : Option Nat) (operator : String)
  | word (line : Nat) (w : Word)

/-- A script that is being read. -/
structure Reader where
  rest : List Char
  /-- More than the depth of anything in the script. -/
  depth : Nat := 1000
  line : Nat := 1
  /-- Lines that were taken out behind the present one. -/
  skipped : Nat := 0
  /-- A token that has been looked at and not been used. -/
  ahead : Option Token := none

/-- Why a script cannot be read on, and in which line. -/
structure ReadFault where
  line : Nat
  text : Bytes
  deriving DecidableEq, Repr

abbrev Parse := EStateM ReadFault Reader

def fault {α : Type} (text : Bytes) : Parse α := do throw ⟨(← get).line,text⟩

def peekChar : Parse (Option Char) := return (← get).rest.head?

/-- Takes the next character, and counts the lines. -/
def nextChar : Parse (Option Char) := modifyGet fun r =>
  match r.rest with
  | [] => (none,r)
  | c :: rest =>
    if c = '\n' then (some c,{ r with rest, line := r.line + 1 + r.skipped, skipped := 0 })
    else (some c,{ r with rest })

def takeChars (test : Char → Bool) : Parse (List Char) := modifyGet fun r =>
  let found := r.rest.takeWhile test
  (found,{ r with
    rest := r.rest.dropWhile test
    line := r.line + found.count '\n' })

/-- Takes the next character if it is the one asked for. -/
def acceptChar (c : Char) : Parse Bool := do
  if (← peekChar) = some c then
    let _ ← nextChar
    return true
  return false

/-- Takes what is left of a line, and its end. -/
def skipComment : Parse Unit := do let _ ← takeChars (· ≠ '\n')

/-- Words that have a meaning where a command may begin. -/
def reserved : List String :=
  ["!","case","do","done","elif","else","esac","fi","for","if","in","then","until",
   "while","\x7b","\x7d"]

/-- Reserved words that end a list of commands. -/
def closers : List String := ["do","done","elif","else","esac","fi","then","\x7d"]

/-- The reserved word that a token is. -/
def Token.reserved? : Token → Option String
  | word _ w => w.plain?.bind fun text => reserved.find? (ofString · = text)
  | _ => none

/-- How a token is called in a complaint. -/
def Token.title : Token → Bytes
  | endOfFile => "end of file"
  | newline => "newline"
  | operator text => "\"" ++ text ++ "\""
  | redirect _ _ => "redirection"
  | token@(word _ _) =>
    match token.reserved? with
    | some text => "\"" ++ text ++ "\""
    | none => "word"

def unexpected {α : Type} (token : Token) (expected : Option String := none) : Parse α :=
  let wish : Bytes := match expected with
    | some "word" => " (expecting word)"
    | some text => " (expecting \"" ++ text ++ "\")"
    | none => []
  fault ("Syntax error: " ++ token.title ++ " unexpected" ++ wish)

/-- Operators, the longer ones first. -/
def operators : List String := ["&&","||",";;","&","|",";","(",")"]

def redirectOperators : List String := ["<<-","<<","<&","<>","<",">>",">&",">|",">"]

/-- Takes the first of the texts that comes next. -/
def acceptText (texts : List String) : Parse (Option String) := modifyGet fun r =>
  match texts.find? (·.toList.isPrefixOf r.rest) with
  | some text => (some text,{ r with rest := r.rest.drop text.length })
  | none => (none,r)

/-- Special parameters with a name of one character. -/
def isSpecial (c : Char) : Bool := ['@','*','#','?','$','!','-'].contains c

/-- The text up to a closing backquote, in which a backslash takes the meaning from some
characters. -/
def takeBackquoted (isQuoted : Bool) : (fuel : Nat) → (found : List Char) → Parse (List Char)
  | 0,found => return found.reverse
  | fuel + 1,found => do
    match ← nextChar with
    | none => fault "Syntax error: EOF in backquote substitution"
    | some '\x60' => return found.reverse
    | some '\\' =>
      match ← nextChar with
      | none => takeBackquoted isQuoted fuel ('\\' :: found)
      | some d =>
        if ['\x60','\\','$'].contains d || (isQuoted && d = '"') then
          takeBackquoted isQuoted fuel (d :: found)
        else takeBackquoted isQuoted fuel (d :: '\\' :: found)
    | some c => takeBackquoted isQuoted fuel (c :: found)

/-- The name of a parameter. -/
def takeName : Parse (List Char) := do
  match ← peekChar with
  | none => return []
  | some c =>
    if isNameStart c then takeChars isNameChar
    else if c.isDigit then takeChars Char.isDigit
    else if isSpecial c then
      let _ ← nextChar
      return [c]
    else return []

/-- The sign that says what is done with the value of a parameter. -/
def takeForm : Parse (Option Form) := do
  match ← acceptText [":-",":=",":?",":+","-","=","?","+","%%","%","##","#"] with
  | some ":-" => return some (.orElse true)
  | some ":=" => return some (.orAssign true)
  | some ":?" => return some (.orComplain true)
  | some ":+" => return some (.instead true)
  | some "-" => return some (.orElse false)
  | some "=" => return some (.orAssign false)
  | some "?" => return some (.orComplain false)
  | some "+" => return some (.instead false)
  | some "%%" => return some (.dropEnd true)
  | some "%" => return some (.dropEnd false)
  | some "##" => return some (.dropStart true)
  | some "#" => return some (.dropStart false)
  | _ => return none

def Form.isPattern : Form → Bool
  | .dropEnd _ | .dropStart _ => true
  | _ => false

/-- Where pieces stand: in a word, between double quotes, in a document, behind the sign of a
parameter, or in an arithmetic expression. -/
inductive Setting where
  | word
  | quoted
  | document
  | operand (isQuoted isPattern : Bool)
  | arithmetic (depth : Nat)
  deriving DecidableEq, Repr

namespace Setting

def isQuoted : Setting → Bool
  | word => false
  | operand isQuoted isPattern => isQuoted && !isPattern
  | _ => true

/-- Does a single quote mean something here? -/
def hasSingleQuotes : Setting → Bool
  | word => true
  | operand isQuoted isPattern => !isQuoted || isPattern
  | _ => false

def hasDoubleQuotes : Setting → Bool
  | word | operand _ _ => true
  | _ => false

/-- Characters that stand for themselves here. -/
def isOrdinary (s : Setting) (c : Char) : Bool :=
  !(['\\','$','\x60','\'','"','\x7d','(',')'].contains c) && !(s = word && isDelimiter c)

/-- Characters that a backslash takes the meaning from between double quotes. -/
def isEscapable (s : Setting) (c : Char) : Bool :=
  ['$','\\','\x60'].contains c || (c = '"' && s ≠ document) ||
    (c = '\x7d' && match s with
      | operand _ _ => true
      | _ => false)

end Setting

/-- The lines up to the one that is the delimiter, how many there were, and what follows. The
lines found so far come last one first. -/
def splitDocument (delimiter : List Char) (stripsTabs : Bool) :
    (fuel : Nat) → (found : List (List Char)) → (count : Nat) → List Char →
      List Char × Nat × List Char
  | 0,found,count,rest => (found.reverse.flatten,count,rest)
  | _ + 1,found,count,[] => (found.reverse.flatten,count,[])
  | fuel + 1,found,count,cs =>
    let whole := cs.takeWhile (· ≠ '\n')
    let line := if stripsTabs then whole.dropWhile (· = '\t') else whole
    let after := cs.drop whole.length
    if line = delimiter then (found.reverse.flatten,count + 1,after.drop 1)
    else
      splitDocument delimiter stripsTabs fuel ((line ++ after.take 1) :: found) (count + 1)
        (after.drop 1)

/-- Takes a document out of the lines behind the present one. -/
def takeDocument (delimiter : List Char) (stripsTabs : Bool) : Parse (List Char) :=
  modifyGet fun r =>
    let line := r.rest.takeWhile (· ≠ '\n')
    let after := r.rest.drop (line.length + 1)
    let (text,count,after) := splitDocument delimiter stripsTabs (after.length + 1) [] 0 after
    (text,{ r with rest := line ++ '\n' :: after, skipped := r.skipped + count })

mutual

/-- The pieces up to the end of a setting. -/
def readParts (s : Setting) : (fuel : Nat) → Parse Word
  | 0 => fault "Syntax error: nested too deep"
  | fuel + 1 => do
    match ← peekChar with
    | none =>
      match s with
      | .word | .document => return []
      | .quoted => fault "Syntax error: Unterminated quoted string"
      | .operand _ _ => fault "Syntax error: Missing '\x7d'"
      | .arithmetic _ => fault "Syntax error: Missing '))'"
    | some c =>
      if s = .word && isDelimiter c then return []
      else if c = '\\' then readEscape s fuel
      else if c = '$' then
        let _ ← nextChar
        let part ← readDollar s.isQuoted fuel
        return part :: (← readParts s fuel)
      else if c = '\x60' then
        let _ ← nextChar
        let inner ← takeBackquoted s.isQuoted ((← get).rest.length + 1) []
        let after ← get
        set { after with rest := inner, ahead := none }
        let body ← readList fuel
        let token ← nextToken fuel
        match token with
        | .endOfFile => pure ()
        | _ => unexpected token
        set after
        return .output body s.isQuoted :: (← readParts s fuel)
      else if c = '\'' && s.hasSingleQuotes then
        let _ ← nextChar
        let text ← takeChars (· ≠ '\'')
        if !(← acceptChar '\'') then fault "Syntax error: Unterminated quoted string"
        return .literal (bytesOf text) true :: (← readParts s fuel)
      else if c = '"' && s = .quoted then
        let _ ← nextChar
        return []
      else if c = '"' && s.hasDoubleQuotes then
        let _ ← nextChar
        let parts ← readParts .quoted fuel
        let parts := if parts.isEmpty then [.literal [] true] else parts
        return parts ++ (← readParts s fuel)
      else match s with
        | .operand _ _ =>
          if c = '\x7d' then
            let _ ← nextChar
            return []
          else readOrdinary s fuel
        | .arithmetic depth =>
          if c = '(' then
            let _ ← nextChar
            return .literal "(" true :: (← readParts (.arithmetic (depth + 1)) fuel)
          else if c = ')' then
            let _ ← nextChar
            if depth > 0 then
              return .literal ")" true :: (← readParts (.arithmetic (depth - 1)) fuel)
            if !(← acceptChar ')') then fault "Syntax error: Missing '))'"
            return []
          else readOrdinary s fuel
        | _ => readOrdinary s fuel

/-- Characters that stand for themselves; the first one does in any case. -/
def readOrdinary (s : Setting) : (fuel : Nat) → Parse Word
  | 0 => fault "Syntax error: nested too deep"
  | fuel + 1 => do
    match ← nextChar with
    | none => return []
    | some c =>
      let more ← takeChars s.isOrdinary
      return .literal (bytesOf (c :: more)) s.isQuoted :: (← readParts s fuel)

/-- A backslash and what it is in front of. -/
def readEscape (s : Setting) : (fuel : Nat) → Parse Word
  | 0 => fault "Syntax error: nested too deep"
  | fuel + 1 => do
    let _ ← nextChar
    match ← nextChar with
    | none => return .literal "\\" true :: (← readParts s fuel)
    | some d =>
      let rest ← readParts s fuel
      if d = '\n' then return rest
      else if s.isQuoted && !s.isEscapable d then
        return .literal (bytesOf ['\\',d]) true :: rest
      else return .literal (bytesOf [d]) true :: rest

/-- What stands behind a dollar sign. -/
def readDollar (isQuoted : Bool) : (fuel : Nat) → Parse Part
  | 0 => fault "Syntax error: nested too deep"
  | fuel + 1 => do
    match ← acceptText ["((","(","\x7b"] with
    | some "((" => return .arithmetic (← readParts (.arithmetic 0) fuel) isQuoted
    | some "(" =>
      let body ← readList fuel
      let token ← nextToken fuel
      match token with
      | .operator ")" => return .output body isQuoted
      | _ => unexpected token (some ")")
    | some _ => readBraced isQuoted fuel
    | none =>
      match ← peekChar with
      | none => return .literal "$" isQuoted
      | some c =>
        if isNameStart c then
          return .parameter (bytesOf (← takeChars isNameChar)) .plain [] isQuoted
        else if c.isDigit || isSpecial c then
          let _ ← nextChar
          return .parameter (bytesOf [c]) .plain [] isQuoted
        else return .literal "$" isQuoted

/-- A parameter between braces. -/
def readBraced (isQuoted : Bool) : (fuel : Nat) → Parse Part
  | 0 => fault "Syntax error: nested too deep"
  | fuel + 1 => do
    let isLength := match (← get).rest with
      | '#' :: d :: _ => isNameChar d || (isSpecial d && d ≠ '#' && d ≠ '-' && d ≠ '?')
      | _ => false
    if isLength then
      let _ ← nextChar
    let name ← takeName
    if name ≠ [] then
      if ← acceptChar '\x7d' then
        return .parameter (bytesOf name) (if isLength then .length else .plain) [] isQuoted
    let form ← if name = [] || isLength then pure none else takeForm
    let form := form.getD .bad
    let operand ← readParts (.operand isQuoted (Form.isPattern form)) fuel
    return .parameter (bytesOf name) form operand isQuoted

/-- The next token. -/
def nextToken : (fuel : Nat) → Parse Token
  | 0 => fault "Syntax error: nested too deep"
  | fuel + 1 => do
    let r ← get
    match r.ahead with
    | some token =>
      set { r with ahead := none }
      return token
    | none =>
      let _ ← takeChars isBlank
      match (← get).rest with
      | [] => return .endOfFile
      | '\\' :: '\n' :: _ =>
        let _ ← nextChar
        let _ ← nextChar
        nextToken fuel
      | '#' :: _ =>
        skipComment
        nextToken fuel
      | '\n' :: _ =>
        let _ ← nextChar
        return .newline
      | cs =>
        if let some text ← acceptText operators then return .operator text
        if let some text ← acceptText redirectOperators then return .redirect none text
        let digits := cs.takeWhile Char.isDigit
        let isDescriptor := digits.length = 1 &&
          ((cs.drop digits.length).head? = some '<' || (cs.drop digits.length).head? = some '>')
        if isDescriptor then
          let _ ← takeChars Char.isDigit
          if let some text ← acceptText redirectOperators then
            return .redirect (String.ofList digits).toNat? text
        let line := (← get).line
        return .word line (← readParts .word fuel)

/-- The next token, which is left where it is. -/
def peekToken : (fuel : Nat) → Parse Token
  | 0 => fault "Syntax error: nested too deep"
  | fuel + 1 => do
    let token ← nextToken fuel
    modify fun r => { r with ahead := some token }
    return token

/-- Passes over line ends. -/
def skipNewlines : (fuel : Nat) → Parse Unit
  | 0 => fault "Syntax error: nested too deep"
  | fuel + 1 => do
    if let .newline ← peekToken fuel then
      let _ ← nextToken fuel
      skipNewlines fuel

/-- Takes a reserved word. -/
def expectWord (text : String) : (fuel : Nat) → Parse Unit
  | 0 => fault "Syntax error: nested too deep"
  | fuel + 1 => do
    let token ← nextToken fuel
    if token.reserved? ≠ some text then unexpected token (some text)

/-- Commands up to a word or a sign that ends a list, which is left. -/
def readList : (fuel : Nat) → Parse (List Command)
  | 0 => fault "Syntax error: nested too deep"
  | fuel + 1 => do
    skipNewlines fuel
    let token ← peekToken fuel
    let isEnd := match token with
      | .endOfFile | .operator ")" | .operator ";;" => true
      | _ => token.reserved?.any closers.contains
    if isEnd then return []
    let command ← readAndOr fuel
    match ← peekToken fuel with
    | .operator ";" | .newline =>
      let _ ← nextToken fuel
      return command :: (← readList fuel)
    | .operator "&" =>
      let _ ← nextToken fuel
      return .background command :: (← readList fuel)
    | _ => return [command]

/-- A list of commands that is not empty, unless the script ends. -/
def readBody : (fuel : Nat) → Parse (List Command)
  | 0 => fault "Syntax error: nested too deep"
  | fuel + 1 => do
    let body ← readList fuel
    match body,← peekToken fuel with
    | [],.endOfFile => return []
    | [],token => unexpected token
    | _,_ => return body

/-- Commands joined by `&&` and `||`. -/
def readAndOr : (fuel : Nat) → Parse Command
  | 0 => fault "Syntax error: nested too deep"
  | fuel + 1 => do readJoined fuel (← readPipeline fuel)

def readJoined : (fuel : Nat) → Command → Parse Command
  | 0,_ => fault "Syntax error: nested too deep"
  | fuel + 1,first => do
    match ← peekToken fuel with
    | .operator "&&" =>
      let _ ← nextToken fuel
      skipNewlines fuel
      readJoined fuel (.andThen first (← readPipeline fuel))
    | .operator "||" =>
      let _ ← nextToken fuel
      skipNewlines fuel
      readJoined fuel (.orElse first (← readPipeline fuel))
    | _ => return first

def readPipeline : (fuel : Nat) → Parse Command
  | 0 => fault "Syntax error: nested too deep"
  | fuel + 1 => do
    let isNegated := (← peekToken fuel).reserved? = some "!"
    if isNegated then
      let _ ← nextToken fuel
    let first ← readCommand fuel
    let commands ← readPiped fuel
    if commands.isEmpty && !isNegated then return first
    return .pipeline isNegated (first :: commands)

/-- The commands behind the signs of a pipeline. -/
def readPiped : (fuel : Nat) → Parse (List Command)
  | 0 => fault "Syntax error: nested too deep"
  | fuel + 1 => do
    match ← peekToken fuel with
    | .operator "|" =>
      let _ ← nextToken fuel
      skipNewlines fuel
      let command ← readCommand fuel
      return command :: (← readPiped fuel)
    | _ => return []

/-- One command with its redirections. -/
def readCommand : (fuel : Nat) → Parse Command
  | 0 => fault "Syntax error: nested too deep"
  | fuel + 1 => do
    let token ← peekToken fuel
    let reader ← get
    let line := match token with
      | .word line _ => line
      | _ => reader.line
    let finish (command : Command) : Parse Command := do
      let redirections ← readRedirections fuel
      return if redirections.isEmpty then command else .redirected line command redirections
    match token with
    | .operator "(" =>
      let _ ← nextToken fuel
      let body ← readBody fuel
      let token ← nextToken fuel
      match token with
      | .operator ")" => finish (.subshell body)
      | _ => unexpected token (some ")")
    | .word _ _ =>
      match token.reserved? with
      | some "\x7b" =>
        let _ ← nextToken fuel
        let body ← readBody fuel
        expectWord "\x7d" fuel
        finish (.group body)
      | some "if" =>
        let _ ← nextToken fuel
        finish (← readIf fuel)
      | some "for" =>
        let _ ← nextToken fuel
        finish (← readFor fuel)
      | some "case" =>
        let _ ← nextToken fuel
        finish (← readCase fuel)
      | some text =>
        if text = "while" || text = "until" then
          let _ ← nextToken fuel
          let condition ← readBody fuel
          expectWord "do" fuel
          let body ← readBody fuel
          expectWord "done" fuel
          finish (.loop (text = "while") condition body)
        else if text = "in" then readSimple fuel line [] [] []
        else unexpected token
      | none => readSimple fuel line [] [] []
    | .redirect _ _ => readSimple fuel line [] [] []
    | _ => unexpected token

/-- The rest of an `if` form. -/
def readIf : (fuel : Nat) → Parse Command
  | 0 => fault "Syntax error: nested too deep"
  | fuel + 1 => do
    let condition ← readBody fuel
    expectWord "then" fuel
    let thenBody ← readBody fuel
    let token ← nextToken fuel
    match token.reserved? with
    | some "fi" => return .ifElse condition thenBody []
    | some "elif" => return .ifElse condition thenBody [← readIf fuel]
    | some "else" =>
      let elseBody ← readBody fuel
      expectWord "fi" fuel
      return .ifElse condition thenBody elseBody
    | _ => unexpected token (some "fi")

/-- Words up to the end of a command. -/
def readWords : (fuel : Nat) → Parse (List Word)
  | 0 => fault "Syntax error: nested too deep"
  | fuel + 1 => do
    match ← peekToken fuel with
    | .word _ w =>
      let _ ← nextToken fuel
      return w :: (← readWords fuel)
    | _ => return []

/-- The rest of a `for` form. Without words it goes through the arguments. -/
def readFor : (fuel : Nat) → Parse Command
  | 0 => fault "Syntax error: nested too deep"
  | fuel + 1 => do
    let name := match ← nextToken fuel with
      | .word _ w => w.plain?.getD []
      | _ => []
    if !isName name then fault "Syntax error: Bad for loop variable"
    skipNewlines fuel
    let isListed := (← peekToken fuel).reserved? = some "in"
    let words ← if isListed then
        let _ ← nextToken fuel
        readWords fuel
      else pure [[.parameter "@" .plain [] true]]
    match ← peekToken fuel with
    | .operator ";" =>
      let _ ← nextToken fuel
    | _ => pure ()
    skipNewlines fuel
    expectWord "do" fuel
    let body ← readBody fuel
    expectWord "done" fuel
    return .forEach name words body

/-- The rest of a `case` form. -/
def readCase : (fuel : Nat) → Parse Command
  | 0 => fault "Syntax error: nested too deep"
  | fuel + 1 => do
    let subject ← match ← nextToken fuel with
      | .word _ w => pure w
      | token => unexpected token (some "word")
    skipNewlines fuel
    expectWord "in" fuel
    return .choice subject (← readItems fuel)

def readItems : (fuel : Nat) → Parse (List (List Word × List Command))
  | 0 => fault "Syntax error: nested too deep"
  | fuel + 1 => do
    skipNewlines fuel
    let token ← peekToken fuel
    if token.reserved? = some "esac" then
      let _ ← nextToken fuel
      return []
    if let .operator "(" := token then
      let _ ← nextToken fuel
    let patterns ← readPatterns fuel
    let body ← readList fuel
    let token ← nextToken fuel
    match token with
    | .operator ";;" => return (patterns,body) :: (← readItems fuel)
    | _ =>
      if token.reserved? = some "esac" then return [(patterns,body)]
      unexpected token (some ";;")

def readPatterns : (fuel : Nat) → Parse (List Word)
  | 0 => fault "Syntax error: nested too deep"
  | fuel + 1 => do
    let w := match ← nextToken fuel with
      | .word _ w => w
      | _ => []
    let token ← nextToken fuel
    match token with
    | .operator "|" => return w :: (← readPatterns fuel)
    | .operator ")" => return [w]
    | _ => unexpected token (some ")")

/-- The words, assignments and redirections of a simple command, or a function. -/
def readSimple : (fuel line : Nat) → (assignments : List (Bytes × Word)) → (words : List Word) →
    (redirections : List Redirection) → Parse Command
  | 0,_,_,_,_ => fault "Syntax error: nested too deep"
  | fuel + 1,line,assignments,words,redirections => do
    match ← peekToken fuel with
    | .word _ w =>
      let _ ← nextToken fuel
      match words,assignment? w with
      | [],some a => readSimple fuel line (assignments ++ [a]) words redirections
      | _,_ => readSimple fuel line assignments (words ++ [w]) redirections
    | .redirect _ _ =>
      let r ← readRedirection fuel
      readSimple fuel line assignments words (redirections ++ [r])
    | .operator "(" =>
      match assignments,words,redirections with
      | [],[w],[] =>
        let _ ← nextToken fuel
        let token ← nextToken fuel
        match token with
        | .operator ")" => pure ()
        | _ => unexpected token (some ")")
        if !isName w.text then fault "Syntax error: Bad function name"
        skipNewlines fuel
        return .function w.text (← readCommand fuel)
      | _,_,_ => unexpected (.operator "(")
    | _ => return .simple line assignments words redirections

def readRedirections : (fuel : Nat) → Parse (List Redirection)
  | 0 => fault "Syntax error: nested too deep"
  | fuel + 1 => do
    match ← peekToken fuel with
    | .redirect _ _ =>
      let r ← readRedirection fuel
      return r :: (← readRedirections fuel)
    | _ => return []

def readRedirection : (fuel : Nat) → Parse Redirection
  | 0 => fault "Syntax error: nested too deep"
  | fuel + 1 => do
    let (descriptor,operator) ← match ← nextToken fuel with
      | .redirect descriptor operator => pure (descriptor,operator)
      | token => unexpected token
    let target ← match ← nextToken fuel with
      | .word _ w => pure w
      | token => unexpected token
    match operator with
    | "<" => return .file (descriptor.getD 0) .input target
    | "<>" => return .file (descriptor.getD 0) .both target
    | ">>" => return .file (descriptor.getD 1) .append target
    | "<&" => return .copy (descriptor.getD 0) target
    | ">&" => return .copy (descriptor.getD 1) target
    | "<<" | "<<-" =>
      let text ← takeDocument (charsOf target.text) (operator = "<<-")
      if target.isQuoted then
        return .text (descriptor.getD 0) [.literal (bytesOf text) true]
      let after ← get
      set { after with rest := text, ahead := none }
      let document ← readParts .document fuel
      set after
      return .text (descriptor.getD 0) document
    | ">|" => return .file (descriptor.getD 1) .forced target
    | _ => return .file (descriptor.getD 1) .output target

end

mutual

/-- The commands of a line up to its end. -/
def readLineAfter : (fuel : Nat) → Parse (List Command)
  | 0 => fault "Syntax error: nested too deep"
  | fuel + 1 => do
    let command ← readAndOr fuel
    let token ← nextToken fuel
    match token with
    | .endOfFile | .newline => return [command]
    | .operator ";" => return command :: (← readMore fuel)
    | .operator "&" => return .background command :: (← readMore fuel)
    | _ => unexpected token

/-- The commands of a line behind a sign that separates commands. -/
def readMore : (fuel : Nat) → Parse (List Command)
  | 0 => fault "Syntax error: nested too deep"
  | fuel + 1 => do
    match ← peekToken fuel with
    | .newline =>
      let _ ← nextToken fuel
      return []
    | .endOfFile => return []
    | _ => readLineAfter fuel

end

/-- The commands of the next line that has some; `none` at the end. -/
def readLine (fuel : Nat) : Parse (Option (List Command)) := do
  skipNewlines fuel
  match ← peekToken fuel with
  | .endOfFile => return none
  | _ => return some (← readLineAfter fuel)

/-- The commands of the next line, and what is left of the script. -/
def Reader.next (r : Reader) : Except ReadFault (Option (List Command) × Reader) :=
  match readLine r.depth r with
  | .ok commands after => .ok (commands,after)
  | .error fault _ => .error fault

def Reader.ofBytes (b : Bytes) : Reader := { rest := charsOf b, depth := 16 * b.length + 1000 }

end TeenyTiny.Model.Script

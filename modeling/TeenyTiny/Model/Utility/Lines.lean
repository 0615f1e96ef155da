import TeenyTiny.Model.Utility.Mode
import TeenyTiny.Model.Utility.Regex

/-! Utilities that go through texts line by line or byte by byte. -/
namespace TeenyTiny.Model.Utility
open Text

/-- Copies an input to the standard output as it comes. -/
def pump (descriptor : Nat) : (fuel : Nat) → Task (Except Errno Unit)
  | 0 => return .ok ()
  | fuel + 1 => do
    match ← Task.read descriptor Task.pieceSize with
    | .error cause => return .error cause
    | .ok piece =>
      if piece.isEmpty then return .ok ()
      match ← Task.attempt (.write 1 piece) with
      | .error cause => return .error cause
      | .ok _ => pump descriptor fuel

/-- The operands, or the standard input if there are none. -/
def inputs (o : Options) : List Bytes := if o.operands = [] then [[45]] else o.operands

/-- Goes through the texts of the operands; one that cannot be read is complained about. -/
def forTexts (utility : String) (o : Options) (wording : Path → Errno → Bytes)
    (step : Path → Bytes → Task Nat) : Task Nat :=
  forOperands (inputs o) fun p => do
    match ← readOperand p with
    | .error cause => fail utility (wording p cause)
    | .ok block => step p block.data.toList

def plainWording (p : Path) (cause : Errno) : Bytes := named p ++ ": " ++ reason cause

def cat (arguments : List Bytes) : Task Nat :=
  let table : OptionTable := { plain := ['u','n','b','s','A','e','E','v','t','T'] }
  withOptions "cat" table arguments fun o => do
    if o.has 'n' then
      let texts ← (inputs o).mapM fun p => do
        return (← readOperand p).toOption.getD ByteArray.empty
      let all := lines (texts.flatMap (·.data.toList))
      for (line,n) in all.zip (List.range all.length) do
        let number := digitsIn 10 (n + 1)
        say (List.replicate (6 - number.length) 32 ++ number ++ [9] ++ line)
      return 0
    forOperands (inputs o) fun p => do
      let source ← if p = [45] then pure (.ok 0) else Task.openFile p .input
      match source with
      | .error cause => fail "cat" (plainWording p cause)
      | .ok descriptor =>
        let result ← pump descriptor Task.maxPieces
        if p ≠ [45] then Task.perform (.close descriptor)
        match result with
        | .error cause => fail "cat" (plainWording p cause)
        | .ok _ => return 0

def tac (arguments : List Bytes) : Task Nat :=
  withOptions "tac" {} arguments fun o => forTexts "tac" o
    (fun p cause => "failed to open " ++ quoted p ++ " for reading: " ++ reason cause)
    fun _ text => do
      say (lines text).reverse.flatten
      return 0

/-- A first option such as `-3` is written out as `-n 3`. -/
def spellCount : List Bytes → List Bytes
  | (45 :: b :: digits) :: rest =>
    if (b :: digits).all isDigit then [45,110] :: (b :: digits) :: rest
    else (45 :: b :: digits) :: rest
  | arguments => arguments

/-- The title of a text among several. -/
def heading (isFirst : Bool) (p : Path) : Bytes :=
  let start : Bytes := if isFirst then [] else [10]
  let title : Bytes := if p = [45] then "standard input" else p
  start ++ "==> " ++ title ++ " <==\n"

/-- Texts one after the other, each read and cut by a rule; several have titles. -/
def showParts (utility : String) (o : Options) (part : Path → Task (Except Errno Bytes)) :
    Task Nat :=
  let many := o.operands.length > 1 && !o.has 'q'
  forOperands ((inputs o).zip (List.range (inputs o).length)) fun (p,n) => do
    match ← part p with
    | .error .isDirectory =>
      fail utility ("error reading " ++ quoted p ++ ": " ++ reason .isDirectory)
    | .error cause =>
      fail utility ("cannot open " ++ quoted p ++ " for reading: " ++ reason cause)
    | .ok text =>
      if many || o.has 'v' then say (heading (n = 0) p)
      say text
      return 0

/-- A part of a text that is read to its end. -/
def partOfAll (cut : Bytes → Bytes) (p : Path) : Task (Except Errno Bytes) := do
  return (← readOperand p).map fun block => cut block.data.toList

/-- Reads until so many lines, or so many bytes, are there. What stays in a file is left for
others. -/
def readPieces (descriptor step : Nat) (weight : ByteArray → Nat) :
    (fuel count : Nat) → (found : ByteArray) → Task (Except Errno ByteArray)
  | 0,_,found => return .ok found
  | _,0,found => return .ok found
  | fuel + 1,count,found => do
    match ← Task.read descriptor step with
    | .error cause => return .error cause
    | .ok piece =>
      if piece.isEmpty then return .ok found
      readPieces descriptor step weight fuel (count - weight piece) (found ++ piece)

/-- The first lines of what is open. -/
def firstLines (count descriptor : Nat) : Task (Except Errno Bytes) := do
  let step ← match ← Task.call (.opened descriptor) with
    | .node _ _ (.file _ _) => pure 1
    | _ => pure Task.pieceSize
  let weight (piece : ByteArray) : Nat := piece.data.count 10
  let block ← readPieces descriptor step weight Task.maxPieces count ByteArray.empty
  return block.map fun text => ((lines text.data.toList).take count).flatten

/-- The first bytes of what is open. -/
def firstBytes (count descriptor : Nat) : Task (Except Errno Bytes) := do
  let block ← readPieces descriptor (min count Task.pieceSize) ByteArray.size Task.maxPieces
    count ByteArray.empty
  return block.map fun text => text.data.toList.take count

/-- A part of a text that need not be read to its end. -/
def partOfStart (part : Nat → Task (Except Errno Bytes)) (p : Path) :
    Task (Except Errno Bytes) := do
  if p = ofString "-" then part 0
  else match ← Task.openFile p .input with
    | .error cause => return .error cause
    | .ok descriptor =>
      let found ← part descriptor
      Task.perform (.close descriptor)
      return found

/-- A count of lines or bytes, and which of the two it is. -/
def countOption (o : Options) : Bool × Bytes :=
  match o.value? 'c' with
  | some argument => (true,argument)
  | none => (false,(o.value? 'n').getD "10")

/-- The complaint about a count that is no number. -/
def badCount (utility : String) (isBytes : Bool) (argument : Bytes) : Task Nat :=
  fail utility ("invalid number of " ++ (if isBytes then "bytes" else "lines") ++ ": " ++
    quoted argument)

def head (arguments : List Bytes) : Task Nat :=
  withOptions "head" { plain := ['q','v'], valued := ['n','c'] }
    (spellCount arguments) fun o => do
    let (isBytes,argument) := countOption o
    match readInt? argument with
    | none => badCount "head" isBytes argument
    | some count =>
      let part : Nat → Task (Except Errno Bytes) :=
        if isBytes then firstBytes count.toNat else firstLines count.toNat
      let take {α : Type} (items : List α) : List α := items.take (items.length - count.natAbs)
      let cut (text : Bytes) : Bytes := if isBytes then take text else (take (lines text)).flatten
      showParts "head" o (if count < 0 then partOfAll cut else partOfStart part)

/-- A time that no one waits for. -/
def forever : Nat := 1000000000000000000

def tail (arguments : List Bytes) : Task Nat :=
  withOptions "tail" { plain := ['q','v','f'], valued := ['n','c'] }
    (spellCount arguments) fun o => do
    let (isBytes,argument) := countOption o
    let isFromStart := argument.head? = some 43
    match readInt? argument with
    | none => badCount "tail" isBytes argument
    | some count =>
      let take {α : Type} (items : List α) : List α :=
        if isFromStart then items.drop (count.toNat - 1)
        else items.drop (items.length - count.natAbs)
      let status ← showParts "tail" o (partOfAll fun text =>
        if isBytes then take text else (take (lines text)).flatten)
      if o.has 'f' then Task.pause forever
      return status

def isSpaceByte (b : UInt8) : Bool := b = 32 || (9 ≤ b && b ≤ 13)

/-- The number of words of a text. -/
def countWords (text : Bytes) : Nat :=
  (text.foldl (fun (state : Nat × Bool) b =>
    if isSpaceByte b then (state.1,false)
    else if state.2 then state else (state.1 + 1,true)) (0,false)).1

def wc (arguments : List Bytes) : Task Nat :=
  withOptions "wc" { plain := ['l','w','c','m'] } arguments fun o => do
    let letters := ['l','w','m','c'].filter fun c =>
      o.has c || (o.letters = [] && c ≠ 'm')
    let measure (text : Bytes) : List Nat := letters.map fun
      | 'l' => text.count 10
      | 'w' => countWords text
      | _ => text.length
    let texts ← (inputs o).mapM fun p => do return (p,← readOperand p)
    let found := texts.filterMap fun (_,result) => result.toOption.map (·.data.toList)
    let total := measure found.flatten
    let isRegular ← match ← Task.call (.opened 0) with
      | .node _ _ (.file _ _) => pure true
      | _ => pure false
    let width :=
      if letters.length = 1 && texts.length = 1 then 1
      else if (o.operands = [] || o.operands.contains [45]) && !isRegular then 7
      else (digitsIn 10 (found.foldl (fun n text => n + text.length) 0)).length
    let row (counts : List Nat) (title : Bytes) : Bytes :=
      [32].intercalate (counts.map fun n =>
        let digits := digitsIn 10 n
        List.replicate (width - digits.length) 32 ++ digits) ++
      (if title = [] then [] else 32 :: title) ++ [10]
    let status ← forOperands texts fun (p,result) => do
      match result with
      | .error cause => fail "wc" (plainWording p cause)
      | .ok block =>
        say (row (measure block.data.toList) (if o.operands = [] then [] else p))
        return 0
    if texts.length > 1 then say (row total "total")
    return status

/-- The bytes that a set of `tr` stands for. -/
def setBytes : (fuel : Nat) → Bytes → Bytes
  | 0,_ => []
  | _,[] => []
  | fuel + 1,b :: rest =>
    let unit (b : UInt8) (rest : Bytes) : UInt8 × Bytes :=
      if b = 92 then readEscape rest else (b,rest)
    let range (low high : UInt8) : Bytes :=
      (List.range (high.toNat + 1 - low.toNat)).map fun n => UInt8.ofNat (low.toNat + n)
    let named := if b = 91 && rest.head? = some 58 then
        Pattern.readClass? (Marked.ofBytes false rest) else none
    match named with
    | some (ranges,after) =>
      ranges.flatMap (fun (low,high) => range low high) ++ setBytes fuel after.bytes
    | none =>
      let (first,after) := unit b rest
      match after with
      | 45 :: c :: more =>
        let (last,more) := unit c more
        range first last ++ setBytes fuel more
      | _ => first :: setBytes fuel after

/-- Leaves out bytes that repeat the one before and are in a set. -/
def squeeze (set : Bytes) : (last : Option UInt8) → Bytes → Bytes
  | _,[] => []
  | last,b :: rest =>
    if some b = last && set.contains b then squeeze set last rest
    else b :: squeeze set (some b) rest

def tr (arguments : List Bytes) : Task Nat :=
  withOptions "tr" { plain := ['d','s','c','C','t'], isOrdered := true } arguments fun o => do
    match o.operands with
    | [] => misuse "tr" "missing operand"
    | first :: rest =>
      let isComplement := o.has 'c' || o.has 'C'
      let named := setBytes (first.length + 1) first
      let source := if isComplement then
          ((List.range 256).map UInt8.ofNat).filter (!named.contains ·) else named
      let target := (rest.head?.map fun s => setBytes (s.length + 1) s).getD []
      if rest = [] && !o.has 'd' && !o.has 's' then
        return ← misuse "tr" ("missing operand after " ++ quoted first ++
          "\nTwo strings must be given when translating.")
      match ← Task.readAll 0 with
      | .error cause => fail "tr" ("read error: " ++ reason cause)
      | .ok block =>
        let text := block.data.toList
        let text :=
          if o.has 'd' then text.filter (!source.contains ·)
          else if target = [] then text
          else text.map fun b =>
            match source.findIdx? (· = b) with
            | some i => (target[i]?).getD (target.getLastD b)
            | none => b
        say (if o.has 's' then
          squeeze (if o.has 'd' || target ≠ [] then target else source) none text else text)
        return 0

/-- The number at the start of a line. -/
def leadingNumber (line : Bytes) : Int :=
  let line := line.dropWhile isSpaceByte
  match line with
  | 45 :: rest => -(digitsValue (rest.takeWhile isDigit) : Int)
  | _ => digitsValue (line.takeWhile isDigit)

def sort (arguments : List Bytes) : Task Nat :=
  let table : OptionTable :=
    { plain := ['r','n','u','f','b','s'], valued := ['k','t','o'] }
  withOptions "sort" table arguments fun o => do
      let texts ← (inputs o).mapM fun p => do return (p,← readOperand p)
      match texts.find? fun (_,result) => result.toOption.isNone with
      | some (p,.error cause) => fail "sort" ("cannot read: " ++ plainWording p cause) 2
      | _ =>
        let all := texts.flatMap fun (_,result) =>
          (lines ((result.toOption.map (·.data.toList)).getD [])).map withoutEnd
        let field (line : Bytes) : Bytes :=
          match (o.value? 'k').bind fun k => readNat? (k.takeWhile isDigit) with
          | none => line
          | some n =>
            match (o.value? 't').bind List.head? with
            | some separator => ((splitOn separator line)[n - 1]?).getD []
            | none => (((splitOn 32 line).filter (· ≠ []))[n - 1]?).getD []
        let notAfter (a b : Bytes) : Bool :=
          let (x,y) := if o.has 'r' then (field b,field a) else (field a,field b)
          if o.has 'n' then
            let (m,n) := (leadingNumber x,leadingNumber y)
            if m = n then !decide (y < x) else decide (m ≤ n)
          else !decide (y < x)
        let sorted := all.mergeSort notAfter
        let add (line : Bytes) (found : List Bytes) : List Bytes :=
          if found.head? = some line then found else line :: found
        let kept := if o.has 'u' then sorted.foldr add [] else sorted
        let text := kept.flatMap (· ++ [10])
        match o.value? 'o' with
        | none => say text
        | some p =>
          if let .ok descriptor ← Task.openFile p .output then
            Task.write descriptor text
            Task.perform (.close descriptor)
        return 0

/-- Equal lines that follow each other, with their number. -/
def runs (all : List Bytes) : List (Bytes × Nat) :=
  all.foldr (fun line found =>
    match found with
    | (other,n) :: rest => if other = line then (line,n + 1) :: rest else (line,1) :: found
    | [] => [(line,1)]) []

def uniq (arguments : List Bytes) : Task Nat :=
  withOptions "uniq" { plain := ['c','d','u','i'] } arguments fun o =>
    forTexts "uniq" { o with operands := o.operands.take 1 } plainWording fun _ text => do
      for (line,n) in runs ((lines text).map withoutEnd) do
        if (!o.has 'd' || n > 1) && (!o.has 'u' || n = 1) then
          let digits := digitsIn 10 n
          let column := List.replicate (7 - digits.length) 32 ++ digits ++ [32]
          let count := if o.has 'c' then column else []
          say (count ++ line ++ [10])
      return 0

/-- A list of positions such as `1,3-5,7-`. -/
def isSelected (selection : Bytes) (n : Nat) : Bool :=
  (splitOn 44 selection).any fun range =>
    let low := range.takeWhile (· ≠ 45)
    if low.length = range.length then readNat? range = some n
    else
      let high := range.drop (low.length + 1)
      (readNat? low).getD 1 ≤ n && (readNat? high).all (n ≤ ·)

def cut (arguments : List Bytes) : Task Nat :=
  withOptions "cut" { plain := ['s'], valued := ['c','b','f','d'] } arguments fun o => do
    let pick {α : Type} (selection : Bytes) (items : List α) : List α :=
      (items.zip (List.range items.length)).filterMap fun (item,n) =>
        if isSelected selection (n + 1) then some item else none
    let step : Option (Bytes → Option Bytes) :=
      match (o.value? 'c').orElse fun _ => o.value? 'b',o.value? 'f' with
      | some selection,_ => some fun line => some (pick selection line)
      | none,some selection =>
        let separator := ((o.value? 'd').bind List.head?).getD 9
        some fun line =>
          if !line.contains separator then if o.has 's' then none else some line
          else some ([separator].intercalate (pick selection (splitOn separator line)))
      | none,none => none
    match step with
    | none => misuse "cut" "you must specify a list of bytes, characters, or fields"
    | some step => forTexts "cut" o plainWording fun _ text => do
      say ((lines text).filterMap fun line => (step (withoutEnd line)).map (· ++ [10])).flatten
      return 0

def seq (arguments : List Bytes) : Task Nat := do
  let numbers := arguments.map readInt?
  let range (first step last : Int) : Task Nat := do
    if step = 0 then return ← misuse "seq" "invalid Zero increment value: '0'"
    let count := ((last - first) / step + 1).toNat
    say ((List.range count).flatMap fun (n : Nat) => decimal (first + step * n) ++ [10])
    return 0
  match numbers with
  | [some last] => range 1 1 last
  | [some first,some last] => range first 1 last
  | [some first,some step,some last] => range first step last
  | [] => misuse "seq" "missing operand"
  | _ => misuse "seq" ("invalid floating point argument: " ++
      quoted ((arguments.find? fun a => (readInt? a).isNone).getD []))

/-- Copies the standard input to the standard output and to files. -/
def tee (arguments : List Bytes) : Task Nat :=
  withOptions "tee" { plain := ['a','i','p'] } arguments fun o => do
    let targets ← o.operands.mapM fun p => do
      return (p,← Task.openFile p (if o.has 'a' then .append else .output))
    let status ← forOperands targets fun (p,result) =>
      match result with
      | .ok _ => return 0
      | .error cause => fail "tee" (plainWording p cause)
    let block := (← Task.readAll 0).toOption.getD ByteArray.empty
    if !block.isEmpty then
      Task.perform (.write 1 block)
      for (_,result) in targets do
        if let .ok descriptor := result then Task.perform (.write descriptor block)
    return status

def lowercase (b : UInt8) : UInt8 := if 65 ≤ b && b ≤ 90 then b + 32 else b

/-- The parts of a line that one of the expressions finds, from left to right. -/
def findings (alternatives : List (List Regex)) (line folded : ByteArray) :
    (fuel position : Nat) → List Bytes
  | 0,_ => []
  | fuel + 1,position =>
    let found := alternatives.filterMap fun r => Regex.search r folded position
    match found.foldl (fun best (start,stop,_) =>
        match best with
        | none => some (start,stop)
        | some (first,last) =>
          if start < first || (start = first && stop > last) then some (start,stop) else best)
        (none : Option (Nat × Nat)) with
    | none => []
    | some (start,stop) =>
      if start = stop then
        if start < line.size then findings alternatives line folded fuel (start + 1) else []
      else (line.extract start stop).data.toList :: findings alternatives line folded fuel stop

def grep (arguments : List Bytes) : Task Nat :=
  let table : OptionTable :=
    { plain := ['q','c','v','i','n','l','F','E','x','s','h','H','o','w','L']
      valued := ['e','m'], status := 2 }
  withOptions "grep" table arguments fun o => do
    let (pattern,operands) := match o.value? 'e',o.operands with
      | some pattern,operands => (some pattern,operands)
      | none,pattern :: operands => (some pattern,operands)
      | none,[] => (none,[])
    match pattern with
    | none =>
      Task.write 2 ("Usage: grep [OPTION]... PATTERNS [FILE]...\n" ++
        "Try 'grep --help' for more information.\n")
      return 2
    | some pattern =>
      let folded (b : Bytes) : Bytes := if o.has 'i' then b.map lowercase else b
      let alternatives := (splitOn 10 (folded pattern)).map fun text =>
        let r := if o.has 'F' then Regex.ofText text else Regex.parse (o.has 'E') text
        if o.has 'x' then .lineStart :: r ++ [.lineEnd] else r
      let accepts (line : Bytes) : Bool :=
        let text := (folded line).toByteArray
        (alternatives.any fun r => (Regex.search r text 0).isSome) != o.has 'v'
      let texts ← (if operands = [] then [[45]] else operands).mapM fun p => do
        return (p,← readOperand p)
      let isTitled := (operands.length > 1 || o.has 'H') && !o.has 'h'
      let mut isFound := false
      let mut isFaulty := false
      for (p,result) in texts do
        match result with
        | .error cause =>
          isFaulty := true
          if !o.has 's' then complain "grep" (plainWording p cause)
        | .ok block =>
          let all := (lines block.data.toList).map withoutEnd
          let found := (all.zip (List.range all.length)).filter fun (line,_) => accepts line
          if found ≠ [] then isFound := true
          let title : Bytes := if isTitled then p ++ ":" else []
          if o.has 'q' then pure ()
          else if o.has 'l' then
            if found ≠ [] then say (p ++ "\n")
          else if o.has 'c' then say (title ++ digitsIn 10 found.length ++ "\n")
          else
            say (found.flatMap fun (line,n) =>
              let start := title ++ if o.has 'n' then digitsIn 10 (n + 1) ++ ":" else []
              let shown := if o.has 'o' then
                  findings alternatives line.toByteArray (folded line).toByteArray
                    (line.length + 1) 0
                else [line]
              shown.flatMap (start ++ · ++ [10]))
      if isFaulty && !(o.has 'q' && isFound) then return 2
      return if isFound then 0 else 1

/-- Compares two files byte by byte. -/
def cmp (arguments : List Bytes) : Task Nat :=
  let table : OptionTable :=
    { plain := ['s','l','b'], long := [("silent",'s'),("quiet",'s')], status := 2 }
  withOptions "cmp" table arguments
    fun o => do
      match if o.operands.length = 1 then o.operands ++ [[45]] else o.operands with
      | [p,q] =>
        match ← readOperand p,← readOperand q with
        | .error cause,_ => fail "cmp" (plainWording p cause) 2
        | _,.error cause => fail "cmp" (plainWording q cause) 2
        | .ok a,.ok b =>
          let same := ((a.data.toList.zip b.data.toList).takeWhile fun (x,y) => x = y).length
          if a.size = b.size && same = a.size then return 0
          if !o.has 's' then
            let line := (a.extract 0 same).data.toList.count 10 + 1
            if same < a.size && same < b.size then
              say (p ++ " " ++ q ++ " differ: char " ++ digitsIn 10 (same + 1) ++ ", line " ++
                digitsIn 10 line ++ "\n")
            else
              let short := if a.size < b.size then p else q
              let endsLine := (a.extract 0 same).data.toList.getLast? = some 10
              complain "cmp" (if same = 0 then "EOF on " ++ short ++ " which is empty"
                else "EOF on " ++ short ++ " after byte " ++ digitsIn 10 same ++
                  (if endsLine then ofString ", line " else ofString ", in line ") ++
                  digitsIn 10 (if endsLine then line - 1 else line))
          return 1
      | _ => misuse "cmp" "missing operand" 2

/-- Writes a line again and again. -/
def repeatLine (block : ByteArray) : (fuel : Nat) → Task Nat
  | 0 => return 0
  | fuel + 1 => do
    match ← Task.attempt (.write 1 block) with
    | .error _ => return 1
    | .ok _ => repeatLine block fuel

def yes (arguments : List Bytes) : Task Nat :=
  let text : Bytes := if arguments = [] then "y" else [32].intercalate arguments
  repeatLine (List.replicate 512 (text ++ [10])).flatten.toByteArray Task.maxPieces

end TeenyTiny.Model.Utility

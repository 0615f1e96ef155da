import TeenyTiny.Model.Utility.Mode

/-! Utilities that make, change and remove files. -/
namespace TeenyTiny.Model.Utility
open Text

/-- More than the depth of any directory. -/
def maxDepth : Nat := 4096

/-- The path of a file that is to be put somewhere: inside, if that is a directory. -/
def destination (source target : Path) : Task Path := do
  return if ← Task.isDirectory target then Path.child target (Path.base source) else target

/-- Sources and a target; several sources want a directory. -/
def toTarget (utility : String) (operands : List Bytes) (step : Path → Path → Task Nat) :
    Task Nat := do
  match operands.reverse with
  | [] => misuse utility "missing file operand"
  | [source] => misuse utility ("missing destination file operand after " ++ quoted source)
  | [target,source] => step source (← destination source target)
  | target :: sources =>
    match ← Task.node? target with
    | none => fail utility ("target " ++ quoted target ++ ": " ++ reason .notFound)
    | some node =>
      if !node.isDirectory then
        fail utility ("target " ++ quoted target ++ ": " ++ reason .notDirectory)
      else forOperands sources.reverse fun source => do
        step source (Path.child target (Path.base source))

/-- Writes a block over a file. -/
def overwriteFile (p : Path) (block : ByteArray) : Task (Except Errno Unit) := do
  match ← Task.openFile p { writes := true, truncates := true } with
  | .error cause => return .error cause
  | .ok descriptor =>
    if !block.isEmpty then Task.perform (.write descriptor block)
    Task.perform (.close descriptor)
    return .ok ()

/-- Copies what is no directory. -/
def copyNode (keepsMode : Bool) (source target : Path) (number : Nat) (node : Node) :
    Task Nat := do
  let cannotCreate (cause : Errno) : Task Nat :=
    fail "cp" ("cannot create regular file " ++ quoted target ++ ": " ++ reason cause)
  let new ← do
    match node with
    | .file mode block =>
      let mask ← Task.mask
      pure (Node.file (if keepsMode then mode else Mode.without (mode &&& 0o777) mask) block)
    | .utility name => pure (.utility name)
    | .link p => pure (.link p)
    | _ => do
      let mask ← Task.mask
      pure (.file (Mode.without 0o666 mask) ByteArray.empty)
  match ← Task.find target with
  | .ok (_,other,old) =>
    if other = number then
      fail "cp" (quoted source ++ " and " ++ quoted target ++ " are the same file")
    else if old.isDirectory then
      fail "cp" ("cannot overwrite directory " ++ quoted target ++ " with non-directory")
    else
      let block ← match new with
        | .file _ block => pure block
        | _ => do
          Task.perform (.unlink target)
          Task.perform (.create target new)
          return 0
      match ← overwriteFile target block with
      | .error cause => cannotCreate cause
      | .ok _ =>
        if keepsMode then Task.perform (.setMode target new.mode)
        return 0
  | .error .notDirectory =>
    fail "cp" ("cannot stat " ++ quoted target ++ ": " ++ reason .notDirectory)
  | .error _ =>
    match ← Task.attempt (.create target new) with
    | .error .isDirectory => cannotCreate .notDirectory
    | .error .exists_ => fail "cp" ("not writing through dangling symlink " ++ quoted target)
    | .error cause => cannotCreate cause
    | .ok _ => return 0

/-- Copies a file, or a directory with everything in it. -/
def copyTree (o : Options) : (fuel : Nat) → Path → Path → Task Nat
  | 0,_,_ => return 1
  | fuel + 1,source,target => do
    let isRecursive := o.has 'r' || o.has 'R' || o.has 'a'
    let follows := o.has 'L' || !(isRecursive || o.has 'd' || o.has 'P')
    let keepsMode := o.has 'p' || o.has 'a'
    match ← Task.find source follows with
    | .error cause => fail "cp" ("cannot stat " ++ quoted source ++ ": " ++ reason cause)
    | .ok (_,number,node) =>
      if !node.isDirectory then
        if o.has 'n' && (← Task.node? target).isSome then return 0
        copyNode keepsMode source target number node
      else if !isRecursive then
        fail "cp" ("-r not specified; omitting directory " ++ quoted source)
      else
        let made ← if ← Task.isDirectory target then pure (.ok ())
          else Task.attempt (.makeDirectory target (node.mode &&& 0o777))
        match made,← Task.namesIn source with
        | .error cause,_ =>
          fail "cp" ("cannot create directory " ++ quoted target ++ ": " ++ reason cause)
        | _,.error cause =>
          fail "cp" ("cannot access " ++ quoted source ++ ": " ++ reason cause)
        | _,.ok names =>
          forOperands names fun name =>
            copyTree o fuel (Path.child source name) (Path.child target name)

def cp (arguments : List Bytes) : Task Nat :=
  let table : OptionTable :=
    { plain := ['r','R','a','p','f','d','P','L','n','v','T','i','u','l','s']
      long := [("recursive",'r'),("archive",'a'),("force",'f'),("no-clobber",'n')] }
  withOptions "cp" table arguments fun o =>
    toTarget "cp" o.operands (copyTree o maxDepth)

def move (o : Options) (source target : Path) : Task Nat := do
  match ← Task.find source false with
  | .error cause => fail "mv" ("cannot stat " ++ quoted source ++ ": " ++ reason cause)
  | .ok (_,number,node) =>
    let old := (← Task.find target false).toOption
    if o.has 'n' && old.isSome then return 0
    if old.any fun (_,other,_) => other = number then
      return ← fail "mv" (quoted source ++ " and " ++ quoted target ++ " are the same file")
    match ← Task.attempt (.rename source target) with
    | .ok _ => return 0
    | .error cause =>
      match old with
      | some (_,_,other) =>
        if other.isDirectory && !node.isDirectory then
          return ← fail "mv"
            ("cannot overwrite directory " ++ quoted target ++ " with non-directory")
        if node.isDirectory && !other.isDirectory then
          return ← fail "mv" ("cannot overwrite non-directory " ++ quoted target ++
            " with directory " ++ quoted source)
      | none => pure ()
      if cause = .invalidArgument then
        return ← fail "mv" ("cannot move " ++ quoted source ++ " to a subdirectory of itself, " ++
          quoted target)
      fail "mv" ("cannot move " ++ quoted source ++ " to " ++ quoted target ++ ": " ++
        reason cause)

def mv (arguments : List Bytes) : Task Nat :=
  let table : OptionTable :=
    { plain := ['f','n','v','i','u','T'], long := [("force",'f'),("no-clobber",'n')] }
  withOptions "mv" table arguments fun o => toTarget "mv" o.operands (move o)

def cannotRemove (p : Path) (cause : Errno) : Task Nat :=
  fail "rm" ("cannot remove " ++ quoted p ++ ": " ++ reason cause)

/-- Removes a file, or a directory with everything in it. -/
def removeTree (o : Options) : (fuel : Nat) → Path → Task Nat
  | 0,_ => return 1
  | fuel + 1,p => do
    let isForced := o.has 'f'
    match ← Task.find p false with
    | .error cause =>
      if isForced && (cause = .notFound || cause = .notDirectory) then return 0
      cannotRemove p cause
    | .ok (_,_,node) =>
      if !node.isDirectory then
        match ← Task.attempt (.unlink p) with
        | .ok _ => return 0
        | .error cause => cannotRemove p cause
      else if o.has 'r' || o.has 'R' then
        let names := (← Task.namesIn p).toOption.getD []
        let status ← forOperands names fun name => removeTree o fuel (Path.child p name)
        match ← Task.attempt (.removeDirectory p) with
        | .ok _ => return status
        | .error cause => cannotRemove p cause
      else if o.has 'd' then
        match ← Task.attempt (.removeDirectory p) with
        | .ok _ => return 0
        | .error cause => cannotRemove p cause
      else cannotRemove p .isDirectory

def rm (arguments : List Bytes) : Task Nat :=
  let table : OptionTable :=
    { plain := ['r','R','f','d','v','i','I']
      long := [("recursive",'r'),("force",'f'),("dir",'d')] }
  withOptions "rm" table arguments fun o => do
    if o.operands = [] then
      return ← if o.has 'f' then pure 0 else misuse "rm" "missing operand"
    forOperands o.operands fun p => do
      let last := Path.base p
      if (o.has 'r' || o.has 'R') && (last = [Path.dot] || last = [Path.dot,Path.dot]) then
        fail "rm" ("refusing to remove '.' or '..' directory: skipping " ++ quoted p)
      else removeTree o maxDepth p

/-- Makes the directories on the way to a path that are missing. -/
def makePath (p : Path) : Task (Except (Path × Errno) Unit) := do
  let parts := Path.parts p
  let start : Path := if p.isAbsolute then "/" else []
  ((List.range parts.length).map fun n =>
    start ++ [Path.slash].intercalate (parts.take (n + 1))).foldlM (fun result step => do
      match result with
      | .error fault => return .error fault
      | .ok _ =>
        if ← Task.isDirectory step then return .ok ()
        match ← Task.attempt (.makeDirectory step 0o777) with
        | .ok _ => return .ok ()
        | .error cause =>
          let isLast := (Path.parts step).length = parts.length
          return .error (step,if cause = .exists_ && !isLast then .notDirectory else cause))
      (.ok ())

def mkdir (arguments : List Bytes) : Task Nat :=
  let table : OptionTable :=
    { plain := ['p','v'], valued := ['m'], long := [("parents",'p'),("mode",'m')] }
  withOptions "mkdir" table arguments fun o => do
    if o.operands = [] then return ← misuse "mkdir" "missing operand"
    let mask ← Task.mask
    let mode := (o.value? 'm').map fun argument => Mode.change? argument mask true 0o777
    if let some none := mode then
      return ← fail "mkdir" ("invalid mode " ++ quoted ((o.value? 'm').getD []))
    forOperands o.operands fun p => do
      let cannotCreate (at_ : Path) (cause : Errno) : Task Nat :=
        fail "mkdir" ("cannot create directory " ++ quoted at_ ++ ": " ++ reason cause)
      let result ← if o.has 'p' then makePath p
        else do
          match ← Task.attempt (.makeDirectory p 0o777) with
          | .ok _ => pure (.ok ())
          | .error cause => pure (.error (p,cause))
      match result with
      | .error (step,cause) => cannotCreate step cause
      | .ok _ =>
        if let some (some mode) := mode then Task.perform (.setMode p mode)
        return 0

def rmdir (arguments : List Bytes) : Task Nat :=
  withOptions "rmdir" { plain := ['p','v'], long := [("parents",'p')] } arguments fun o => do
    if o.operands = [] then return ← misuse "rmdir" "missing operand"
    forOperands o.operands fun p => do
      match ← Task.attempt (.removeDirectory p) with
      | .ok _ => return 0
      | .error cause => fail "rmdir" ("failed to remove " ++ quoted p ++ ": " ++ reason cause)

def touch (arguments : List Bytes) : Task Nat :=
  let table : OptionTable :=
    { plain := ['c','a','m','f','h'], valued := ['d','t','r'], long := [("no-create",'c')] }
  withOptions "touch" table arguments fun o => do
    if o.operands = [] then return ← misuse "touch" "missing file operand"
    forOperands o.operands fun p => do
      match ← Task.find p with
      | .ok _ => return 0
      | .error _ =>
        if o.has 'c' then return 0
        match ← Task.openFile p { writes := true, creates := true } with
        | .ok descriptor =>
          Task.perform (.close descriptor)
          return 0
        | .error cause => fail "touch" ("cannot touch " ++ quoted p ++ ": " ++
            reason (if cause = .isDirectory then .notFound else cause))

/-- Gives a file one more name, or makes a link to a path. -/
def linkTo (o : Options) (source target : Path) : Task Nat := do
  let isSymbolic := o.has 's'
  let kind : Bytes := if isSymbolic then "symbolic link " else "hard link "
  if !isSymbolic then
    match ← Task.find source false with
    | .error cause =>
      return ← fail "ln" ("failed to access " ++ quoted source ++ ": " ++ reason cause)
    | .ok (_,_,node) =>
      if node.isDirectory then
        return ← fail "ln" (source ++ ": hard link not allowed for directory")
  if o.has 'f' then
    let same := match ← Task.find source false,← Task.find target false with
      | .ok (_,a,_),.ok (_,b,_) => a == b
      | _,_ => false
    if same then
      return ← fail "ln" (quoted source ++ " and " ++ quoted target ++ " are the same file")
    Task.perform (.unlink target)
  match ← Task.attempt (if isSymbolic then .symlink source target else .link source target) with
  | .ok _ => return 0
  | .error cause =>
    let arrow : Bytes := if isSymbolic || cause = .exists_ then [] else " => " ++ quoted source
    fail "ln" ("failed to create " ++ kind ++ quoted target ++ arrow ++ ": " ++ reason cause)

def ln (arguments : List Bytes) : Task Nat :=
  let table : OptionTable :=
    { plain := ['s','f','n','v','i','T','r','P','L']
      long := [("symbolic",'s'),("force",'f'),("no-dereference",'n')] }
  withOptions "ln" table arguments fun o => do
    let place (source target : Path) : Task Path := do
      let isLink := match ← Task.node? target false with
        | some (.link _) => true
        | _ => false
      if o.has 'T' || (o.has 'n' && isLink) then return target
      destination source target
    match o.operands.reverse with
    | [] => misuse "ln" "missing file operand"
    | [source] => linkTo o source (← place source [Path.dot])
    | [target,source] => linkTo o source (← place source target)
    | target :: sources =>
      if !(← Task.isDirectory target) then
        return ← fail "ln" ("target " ++ quoted target ++ ": " ++ reason .notDirectory)
      forOperands sources.reverse fun source =>
        linkTo o source (Path.child target (Path.base source))

def changeMode (o : Options) (argument : Bytes) : (fuel : Nat) → Path → Task Nat
  | 0,_ => return 1
  | fuel + 1,p => do
    match ← Task.node? p with
    | none =>
      if (← Task.node? p false).isSome then
        fail "chmod" ("cannot operate on dangling symlink " ++ quoted p)
      else fail "chmod" ("cannot access " ++ quoted p ++ ": " ++ reason .notFound)
    | some node =>
      let mask ← Task.mask
      match Mode.change? argument mask node.isDirectory node.mode with
      | none => misuse "chmod" ("invalid mode: " ++ quoted argument)
      | some mode =>
        Task.perform (.setMode p mode)
        if o.has 'R' && node.isDirectory then
          let names := (← Task.namesIn p).toOption.getD []
          forOperands names fun name => changeMode o argument fuel (Path.child p name)
        else return 0

/-- Is the argument a mode that takes rights away, and no option? -/
def isModeArgument (argument : Bytes) : Bool :=
  match decode argument with
  | '-' :: c :: rest => (c :: rest).all fun c =>
    ['r','w','x','X','s','t','u','g','o','+','-','=',','].contains c
  | _ => false

def chmod (arguments : List Bytes) : Task Nat :=
  let (modes,others) := arguments.partition isModeArgument
  let table : OptionTable :=
    { plain := ['R','f','v','c'], long := [("recursive",'R')] }
  withOptions "chmod" table others fun o => do
    match modes ++ o.operands with
    | [] => misuse "chmod" "missing operand"
    | [argument] => misuse "chmod" ("missing operand after " ++ quoted argument)
    | argument :: paths => forOperands paths (changeMode o argument maxDepth)

def truncate (arguments : List Bytes) : Task Nat :=
  let table : OptionTable :=
    { plain := ['c'], valued := ['s'], long := [("size",'s'),("no-create",'c')] }
  withOptions "truncate" table arguments fun o => do
    match (o.value? 's').bind readNat?,o.operands with
    | none,_ => misuse "truncate" "you must specify either '--size' or '--reference'"
    | _,[] => misuse "truncate" "missing file operand"
    | some size,operands => forOperands operands fun p => do
      match ← Task.openFile p { writes := true, creates := !o.has 'c' } with
      | .error cause =>
        fail "truncate" ("cannot open " ++ quoted p ++ " for writing: " ++ reason cause)
      | .ok descriptor =>
        Task.perform (.close descriptor)
        Task.perform (.resize p size)
        return 0

end TeenyTiny.Model.Utility

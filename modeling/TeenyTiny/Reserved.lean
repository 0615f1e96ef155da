import TeenyTiny.Text.Utf8

/-! Names that the generated C cannot use for the names of a program. -/
namespace TeenyTiny
open Text

/-- Keywords of C and macros and objects of its standard input and output header. -/
def reservedWords : List String :=
  ["auto","break","case","char","const","continue","default","do","double","else",
   "enum","extern","float","for","goto","if","inline","int","long","register",
   "restrict","return","short","signed","sizeof","static","struct","switch","typedef",
   "union","unsigned","void","volatile","while","bool","true","false","nullptr",
   "typeof","constexpr","alignas","alignof","static_assert","thread_local",
   "EOF","NULL","BUFSIZ","FILENAME_MAX","FOPEN_MAX","L_tmpnam","TMP_MAX","SEEK_SET",
   "SEEK_CUR","SEEK_END","stdin","stdout","stderr"]

def reservedNames : List Bytes := reservedWords.map ofString

/-- Functions that the generated C calls; a variable of that name would hide them. -/
def calledNames : List Bytes := ["printf","scanf"]

inductive NameUse where
  | variable | label
  deriving DecidableEq, Repr

def isReserved (use : NameUse) (name : Bytes) : Bool :=
  reservedNames.contains name || (use = .variable && calledNames.contains name)

end TeenyTiny

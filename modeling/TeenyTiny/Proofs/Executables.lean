import TeenyTiny.Command.Execute
import TeenyTiny.Proofs.Scanning

/-! The executable beside a C file. Its path is that of the C file without the extension, so that
it is another path, and a path at all, exactly if the C file has an extension and a name before it.
A path without extension is accepted for a C file as well; there the compiler is told to write over
what it reads. -/
namespace TeenyTiny
open Text

namespace Path

/-- An extension begins at the last dot. -/
theorem extension_append {stem ext : Bytes} (hs : slash ∉ ext) (hd : dot ∉ ext) :
    extension (stem ++ dot :: ext) = dot :: ext := by
  have hrev : (stem ++ dot :: ext).reverse = ext.reverse ++ dot :: stem.reverse := by simp
  have hlast : (stem ++ dot :: ext).reverse.takeWhile (· ≠ slash) =
      ext.reverse ++ dot :: stem.reverse.takeWhile (· ≠ slash) := by
    rw [hrev,List.takeWhile_append_of_pos]
    · rfl
    · intro b hb
      simpa using fun h : b = slash => hs (h ▸ List.mem_reverse.mp hb)
  have hletters : (ext.reverse ++ dot :: stem.reverse.takeWhile (· ≠ slash)).takeWhile (· ≠ dot) =
      ext.reverse := by
    refine takeWhile_append_stop ?_ (stop_of_head rfl (by simp))
    intro b hb
    simpa using fun h : b = dot => hd (h ▸ List.mem_reverse.mp hb)
  unfold extension
  dsimp only
  rw [hlast,hletters,if_pos (by simp),List.reverse_reverse]

/-- A path has no extension, or it is a stem, a dot and letters without dots and slashes. -/
theorem extension_cases (p : Path) : extension p = [] ∨
    ∃ stem ext, p = stem ++ dot :: ext ∧ slash ∉ ext ∧ dot ∉ ext := by
  by_cases hdot : dot ∈ p.reverse.takeWhile (· ≠ slash)
  · obtain ⟨letters,rest,hl,hd⟩ := List.eq_append_cons_of_mem hdot
    have hp : p.reverse = letters ++ dot :: rest ++ p.reverse.dropWhile (· ≠ slash) := by
      rw [← hl,List.takeWhile_append_dropWhile]
    have hs : slash ∉ letters := by
      intro h
      have hmem : slash ∈ p.reverse.takeWhile (· ≠ slash) := hl ▸ List.mem_append_left _ h
      simpa using List.mem_takeWhile_imp hmem
    refine .inr ⟨(rest ++ p.reverse.dropWhile (· ≠ slash)).reverse,letters.reverse,?_,?_,?_⟩
    · calc p = p.reverse.reverse := p.reverse_reverse.symm
        _ = (letters ++ dot :: rest ++ p.reverse.dropWhile (· ≠ slash)).reverse := by rw [← hp]
        _ = _ := by simp only [List.reverse_append,List.reverse_cons,List.append_assoc,
          List.singleton_append]
    · simpa using hs
    · simpa using hd
  · exact .inl (if_neg (by simpa using hdot))

theorem dropExtension_of_nil {p : Path} (h : extension p = []) : dropExtension p = p := by
  simp [dropExtension,h]

theorem dropExtension_append {stem ext : Bytes} (hs : slash ∉ ext) (hd : dot ∉ ext) :
    dropExtension (stem ++ dot :: ext) = stem := by
  rw [dropExtension,extension_append hs hd,List.length_append,Nat.add_sub_cancel]
  exact List.take_left' rfl

theorem ne_slash_of_mem {ext : Bytes} (hs : slash ∉ ext) :
    ∀ b ∈ (dot :: ext).reverse, decide (b ≠ slash) = true := by
  intro b hb
  rcases List.mem_cons.mp (List.mem_reverse.mp hb) with rfl | hb
  · rfl
  · simpa using fun h : b = slash => hs (h ▸ hb)

/-- An extension is part of the last name, so that the directory does not change without it. -/
theorem directory_dropExtension (p : Path) : directory (dropExtension p) = directory p := by
  rcases extension_cases p with h | ⟨stem,ext,rfl,hs,hd⟩
  · rw [dropExtension_of_nil h]
  · rw [dropExtension_append hs hd,directory,directory,List.reverse_append,
      List.dropWhile_append_of_pos (ne_slash_of_mem hs)]

/-- The last name of a path ends in the extension. -/
theorem base_append (stem : Bytes) {ext : Bytes} (hs : slash ∉ ext) :
    ∃ name, base (stem ++ dot :: ext) = name ++ dot :: ext := by
  have hmem := ne_slash_of_mem hs
  refine ⟨(stem.reverse.takeWhile (· ≠ slash)).reverse,?_⟩
  have htake : ((dot :: ext).reverse ++ stem.reverse).takeWhile (· ≠ slash) =
      (dot :: ext).reverse ++ stem.reverse.takeWhile (· ≠ slash) :=
    List.takeWhile_append_of_pos hmem
  unfold base
  rw [if_neg (by simp),List.reverse_append]
  cases h : (dot :: ext).reverse with
  | nil => simp at h
  | cons b rest =>
    rw [h] at hmem htake
    have hb : ¬ b = slash := by simpa using hmem b List.mem_cons_self
    have hdrop : (b :: rest ++ stem.reverse).dropWhile (· = slash) = b :: rest ++ stem.reverse :=
      List.dropWhile_cons_of_neg (by simpa using hb)
    rw [hdrop,htake]
    change (b :: rest ++ _).reverse = _
    rw [List.reverse_append,← h,List.reverse_reverse]

end Path

namespace OutputFile

theorem isValidExtension_of_checkText {p : Path} (h : checkText p = .ok ()) :
    isValidExtension (Path.extension (Path.base p)) = true := by
  unfold checkText at h
  dsimp only at h
  split at h
  · cases h
  · split at h
    · cases h
    · split at h
      · cases h
      · rename_i hv
        simpa using hv

theorem not_mem_of_isExtensionByte {ext : Bytes} {b : UInt8} (hb : isExtensionByte b = false)
    (h : isValidExtension (Path.dot :: ext) = true) : b ∉ ext := by
  simp only [isValidExtension,Bool.and_eq_true,List.all_eq_true] at h
  intro hmem
  simpa [hb] using h.1.1 b hmem

end OutputFile

section
variable {m : Type → Type} [Monad m]

/-- A host on which programs are run with these arguments only. Whatever else is to be run, `other`
takes its place. -/
def Host.runningOnly (host : Host m) (arguments : List Bytes) (other : m (Except Errno Finished)) :
    Host m :=
  { host with
    execute := fun p given stdin streams limit =>
      if given = arguments then host.execute p given stdin streams limit else other }

variable (host : Host m) (arguments : List Bytes) (other : m (Except Errno Finished))

theorem makeDirectoriesWithin_runningOnly (depth : Nat) (p : Path) :
    (host.runningOnly arguments other).makeDirectoriesWithin depth p =
      host.makeDirectoriesWithin depth p := by
  induction depth generalizing p with
  | zero => rfl
  | succ depth ih =>
    unfold Host.makeDirectoriesWithin
    simp only [ih]
    rfl

theorem createFresh_runningOnly (operation : String) (create : Path → m (Except Errno Unit))
    (before after : Bytes) (taken : HostError) (attempts : Nat) :
    (host.runningOnly arguments other).createFresh operation create before after taken attempts =
      host.createFresh operation create before after taken attempts := by
  induction attempts with
  | zero => rfl
  | succ attempts ih =>
    unfold Host.createFresh
    rw [ih]
    rfl

theorem commit_runningOnly {ε α : Type} (p : Path) (fill : Fill ε α) :
    OutputFile.commit (host.runningOnly arguments other) p fill =
      OutputFile.commit host p fill := by
  unfold OutputFile.commit Host.makeDirectories Host.createTemporaryFile
  simp only [makeDirectoriesWithin_runningOnly,createFresh_runningOnly]
  rfl

theorem searchIn_runningOnly (name : Bytes) (searchPath : List Path) :
    Toolchain.searchIn (host.runningOnly arguments other) name searchPath =
      Toolchain.searchIn host name searchPath := by
  induction searchPath with
  | nil => rfl
  | cons directory rest ih =>
    unfold Toolchain.searchIn
    rw [ih]
    rfl

theorem find_runningOnly (t : Toolchain) (searchPath : List Path) :
    t.find (host.runningOnly arguments other) searchPath = t.find host searchPath := by
  unfold Toolchain.find Toolchain.lookUp
  simp only [searchIn_runningOnly]
  rfl

theorem runChild_runningOnly (p : Path) (stdin : ByteArray) (streams : Streams)
    (limit : Option Nat) :
    Toolchain.runChild (host.runningOnly arguments other) p arguments stdin streams limit =
      Toolchain.runChild host p arguments stdin streams limit := by
  unfold Toolchain.runChild Host.runningOnly
  dsimp only
  rw [if_pos rfl]

/-- A build runs the compiler, and that with the given flags, the executable and the C file. -/
theorem toolchainBuild_runningOnly (t : Toolchain) (searchPath : List Path) (cFile binary : Path) :
    t.build (host.runningOnly (t.flags ++ [ofString "-o",binary,cFile]) other) searchPath cFile
      binary = t.build host searchPath cFile binary := by
  unfold Toolchain.build
  simp only [find_runningOnly,runChild_runningOnly]

theorem compileToFile_runningOnly (o : Command.Options) (source out : Path) :
    Command.compileToFile (host.runningOnly arguments other) o source out =
      Command.compileToFile host o source out := by
  unfold Command.compileToFile
  simp only [commit_runningOnly]
  rfl

theorem build_runningOnly (around : Surroundings) (o : Command.Options) (source : Path)
    (hout : o.out ≠ []) :
    Command.build (host.runningOnly (o.compilerFlags ++ [ofString "-o",binaryPath o.out,o.out])
      other) around o source = Command.build host around o source := by
  have hbuild := toolchainBuild_runningOnly host other (o.toolchain around.compiler)
    around.searchPath o.out (binaryPath o.out)
  have hbinary : Command.buildBinary (host.runningOnly (o.compilerFlags ++
      [ofString "-o",binaryPath o.out,o.out]) other) around o o.out (binaryPath o.out) =
        Command.buildBinary host around o o.out (binaryPath o.out) := by
    unfold Command.buildBinary
    dsimp only
    rw [← hbuild]
    rfl
  unfold Command.build
  simp only [compileToFile_runningOnly,if_neg hout,hbinary]
  rfl

end

/-- An accepted path has an executable beside it exactly if it is a name, a dot and an extension.
Then and otherwise, the compiler is told to make this executable from this C file, and nothing else
is run. -/
theorem binaryPath_beside_iff {out : Path} (h : OutputFile.checkText out = .ok ()) :
    (binaryPath out ≠ [] ∧ binaryPath out ≠ out ∧
        Path.directory (binaryPath out) = Path.directory out ↔
      ∃ stem ext, out = stem ++ Path.dot :: ext ∧ stem ≠ [] ∧
        OutputFile.isValidExtension (Path.dot :: ext) = true) ∧
    ∀ {m : Type → Type} [Monad m] (host : Host m) (around : Surroundings) (o : Command.Options)
      (source : Path) (other : m (Except Errno Finished)), o.out = out →
      Command.build (host.runningOnly (o.compilerFlags ++ [ofString "-o",binaryPath out,out])
        other) around o source = Command.build host around o source := by
  have hvalid := OutputFile.isValidExtension_of_checkText h
  refine ⟨⟨?_,?_⟩,?_⟩
  · rintro ⟨hne,hother,-⟩
    rcases Path.extension_cases out with he | ⟨stem,ext,rfl,hs,hd⟩
    · exact absurd (Path.dropExtension_of_nil he) hother
    · obtain ⟨name,hname⟩ := Path.base_append stem hs
      rw [hname,Path.extension_append hs hd] at hvalid
      rw [binaryPath,Path.dropExtension_append hs hd] at hne
      exact ⟨stem,ext,rfl,hne,hvalid⟩
  · rintro ⟨stem,ext,rfl,hne,he⟩
    have hs := OutputFile.not_mem_of_isExtensionByte (b := Path.slash) rfl he
    have hd := OutputFile.not_mem_of_isExtensionByte (b := Path.dot) rfl he
    have hbinary : binaryPath (stem ++ Path.dot :: ext) = stem := Path.dropExtension_append hs hd
    refine ⟨?_,?_,Path.directory_dropExtension _⟩
    · rwa [hbinary]
    · rw [hbinary]
      simp
  · rintro m _ host around o source other rfl
    have hout : o.out ≠ [] := by
      intro hnil
      rw [hnil] at h
      cases h
    exact build_runningOnly host other around o source hout

theorem binaryPath_beside_of_hidden : let out : Path := "a.d/.prog.c"
    OutputFile.checkText out = .ok () ∧ binaryPath out ≠ [] ∧ binaryPath out ≠ out ∧
      Path.directory (binaryPath out) = Path.directory out := by
  intro out
  have h : OutputFile.checkText out = .ok () := by rfl
  exact ⟨h,(binaryPath_beside_iff h).1.mpr ⟨"a.d/.prog","c",rfl,by decide,rfl⟩⟩

/-- Without an extension the executable is the C file, and an extension alone leaves no path. -/
theorem binaryPath_of_missing_part :
    (OutputFile.checkText "prog" = .ok () ∧ binaryPath "prog" = "prog") ∧
      OutputFile.checkText ".c" = .ok () ∧ binaryPath ".c" = [] :=
  ⟨⟨rfl,rfl⟩,rfl,rfl⟩

end TeenyTiny

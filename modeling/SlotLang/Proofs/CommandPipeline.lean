import SlotLang.Proofs.ConsoleRuns
import SlotLang.Proofs.StoredModules
import SlotLang.Proofs.WrittenFiles

/-!
# The two commands in a row

The compiler writes a module file and the runner reads it.  Between them stand the name of
the file, its bytes and the console; together they do what compiling the text and running
the module on lines does.  The one thing that can come between is the system, on which it
depends whether the module file can be written.  The compiler makes no other write, so where
the text does not compile, the system is left alone.

What the commands show is their exit codes and their output.  The error stream is left open,
since the system may keep a log there.

* `FileName.notMem_of_stem?` — a stem is a name and not a path.
* `compileCommand_of_ok` — the compiler writes once and then ends.
* `PipelineAgrees` — the commands do what compiling and running in memory does.
* `commands_agree` — they do, on every system that can write the module file.
* `pipelineAgrees_fails` — in a directory they do not, if the name of the file is too long.
-/

namespace SlotLang

/-! ## Names of files -/

namespace FileName

theorem notMem_of_mem_components {path part : List Char} (hpart : part ∈ components path) :
    '/' ∉ part := by
  unfold components at hpart
  induction path generalizing part with
  | nil =>
      rw [List.splitOn_nil, List.mem_singleton] at hpart
      rw [hpart]
      exact List.not_mem_nil
  | cons c rest ih =>
      rw [List.splitOn_cons_eq_if_modifyHead] at hpart
      split at hpart
      next =>
          rcases List.mem_cons.mp hpart with rfl | hrest
          · exact List.not_mem_nil
          · exact ih hrest
      next hc =>
          cases hparts : rest.splitOn '/' with
          | nil =>
              rw [hparts] at hpart
              cases hpart
          | cons first others =>
              rw [hparts] at hpart ih
              rcases List.mem_cons.mp hpart with rfl | hothers
              · refine List.not_mem_cons_of_ne_of_not_mem ?_ (ih List.mem_cons_self)
                rintro rfl
                exact hc rfl
              · exact ih (List.mem_cons_of_mem _ hothers)

theorem mem_of_mem_split {name : List Char} {c : Char} (hc : c ∈ (split name).1) : c ∈ name := by
  unfold split at hc
  split at hc
  next => exact hc
  next => exact hc
  next dot before hbefore =>
      have hmem : c ∈ name.reverse.dropWhile (· != '.') := by
        rw [hbefore]
        exact List.mem_cons_of_mem _ (List.mem_reverse.mp hc)
      exact List.mem_reverse.mp ((List.dropWhile_sublist _).mem hmem)

/-- A stem is a name and not a path. -/
theorem notMem_of_stem? {path stem : String} (hstem : stem? path = some stem) :
    '/' ∉ stem.toList := by
  obtain ⟨name, hname, rfl⟩ := Option.map_eq_some_iff.mp hstem
  rw [String.toList_ofList]
  have hcomponent : name ∈ components path.toList := by
    unfold last? at hname
    split at hname
    next => cases hname
    next => cases hname
    next last hlast =>
        cases hname
        exact List.mem_of_mem_filter (List.mem_of_getLast? hlast)
  exact fun hslash => notMem_of_mem_components hcomponent (mem_of_mem_split hslash)

end FileName

/-! ## The module file -/

/-- The name of the file that the module of a program goes to. -/
def moduleFile (stem : String) : String :=
  stem ++ "." ++ moduleExtension

theorem notMem_moduleFile {stem : String} (hstem : '/' ∉ stem.toList) :
    '/' ∉ (moduleFile stem).toList := by
  simp [moduleFile, moduleExtension, hstem]

theorem moduleFile_notMem (stem : String) : moduleFile stem ∉ ["", ".", ".."] := by
  have hlength : 2 < (moduleFile stem).toList.length := by
    simp [moduleFile, moduleExtension]
  intro hname
  simp only [List.mem_cons, List.not_mem_nil, or_false] at hname
  rcases hname with hname | hname | hname <;> rw [hname] at hlength <;>
    exact absurd hlength (by decide)

/-- A directory can be relied upon where the module file of a program is written. -/
theorem Directory.reliable_moduleFile {dir : Directory} (hroot : dir.file? [] = none)
    {path stem : String} (hstem : FileName.stem? path = some stem) :
    OperatingSystem.Reliable (Leads (moduleFile stem)) dir (moduleFile stem) :=
  reliable hroot (notMem_moduleFile (FileName.notMem_of_stem? hstem)) (moduleFile_notMem stem)

/-- The commands do what compiling the text and running the module in memory does.  The
compiler fails as the text does and then leaves the system alone; or it succeeds without
output and writes the module and no other file, and then the runner shows what a run of the
module shows on the lines of its input, for any bound on the steps of both. -/
structure PipelineAgrees {σ : Type} [OperatingSystem σ] (leads : String → σ → Prop) (system : σ)
    (path source stem : String) : Prop where
  failure : ∀ error, compile source stem = .error error →
    ∃ result, compileCommand [path] system = (result, system) ∧ result.exit = 65
  success : ∀ m, compile source stem = .ok m →
    ∃ result system', compileCommand [path] system = (result, system') ∧
      result.shown = (0, "") ∧
      OperatingSystem.read (moduleFile stem) system' = .ok m.encode ∧
      OperatingSystem.Unchanged leads system system' ∧
      (m.Storable → ∀ fuel input,
        (runCommand fuel [moduleFile stem] (Text.utf8Bytes input) system').map
            CommandResult.shown =
          (m.run Script.host fuel (Script.start (Console.lines input.toList) none none)).shown)

section

variable {σ : Type} [OperatingSystem σ] {leads : String → σ → Prop} {system : σ}
  {path source stem : String} {bytes : List UInt8}

/-- Once the module file is written, the runner finds the module in it. -/
theorem shown_runCommand {m : CodeModule} (hstorable : m.Storable) {name : String}
    (hread : OperatingSystem.read name system = .ok m.encode) (fuel : Nat) (input : String) :
    (runCommand fuel [name] (Text.utf8Bytes input) system).map CommandResult.shown =
      (m.run Script.host fuel (Script.start (Console.lines input.toList) none none)).shown := by
  have hload : loadModule (.ok m.encode) = .ok m :=
    mapError_eq_ok.mpr (CodeModule.decode_eq_ok_iff.mpr ⟨hstorable, rfl⟩)
  rw [runCommand, hread, hload, ← m.runResult_console fuel input]
  simp only [Option.map_map]
  rfl

variable (hread : OperatingSystem.read path system = .ok bytes)
  (htext : Text.ofUtf8? bytes = some source) (hstem : FileName.stem? path = some stem)

include hread htext hstem

theorem compileFile_eq :
    compileFile path (OperatingSystem.read path system) =
      ((compile source stem).mapError fun error =>
        .failure exitData (.report error.diagnostic)).map fun m =>
          (moduleFile stem, m.encode) := by
  have htext' : textOf (.ok bytes) = .ok source := by
    simp [textOf, htext, bind, Except.bind, pure, Except.pure]
  rw [hread, compileFile, htext', hstem]
  change (compile source stem).mapError _ >>= _ = _
  cases compile source stem <;> rfl

theorem compileCommand_of_error {error : CompileError}
    (hcompile : compile source stem = .error error) :
    ∃ result, compileCommand [path] system = (result, system) ∧ result.exit = 65 := by
  have hfile : compileFile path (OperatingSystem.read path system) =
      .error (.failure exitData (.report error.diagnostic)) := by
    rw [compileFile_eq hread htext hstem, hcompile]
    rfl
  exact ⟨_, by simp only [compileCommand, hfile]; rfl, rfl⟩

/-- For a program the compiler makes one write, and ends with what the system says to it. -/
theorem compileCommand_of_ok {m : CodeModule} (hcompile : compile source stem = .ok m)
    {answer : Except FileError Unit} {system' : σ}
    (hwrite : OperatingSystem.write (moduleFile stem) m.encode system = (answer, system')) :
    ∃ result, compileCommand [path] system = (result, system') ∧
      result.shown = (if answer.isOk then 0 else 74, "") := by
  have hfile : compileFile path (OperatingSystem.read path system) =
      .ok (moduleFile stem, m.encode) := by
    rw [compileFile_eq hread htext hstem, hcompile]
    rfl
  cases answer with
  | error error => exact ⟨_, by simp only [compileCommand, hfile, hwrite]; rfl, rfl⟩
  | ok _ => exact ⟨_, by simp only [compileCommand, hfile, hwrite]; rfl, rfl⟩

end

/-- A program that reads two numbers and prints the first. -/
def readingSource : String :=
  "var n = 0; read_int n; print n; read_int n"

def readingModule : CodeModule where
  name := "prog"
  entry := "main"
  locals := #[.int]
  constants := #[.int 0]
  code := #[.constant 0, .storeLocal 0,
    .callHost .readLine, .callHost .parseInt, .storeLocal 0,
    .loadLocal 0, .intToString, .callHost .writeLine,
    .callHost .readLine, .callHost .parseInt, .storeLocal 0, .ret]

/-- A directory with the reading program in a folder. -/
def readingDirectory : Directory :=
  Directory.empty.makeFile "sub/prog.spek" (Text.utf8Bytes readingSource)

/-- A name that a file can have but that is too long with the extension of a module. -/
def longName : String :=
  String.ofList (List.replicate 250 'n')

/-- A directory with a program under the long name. -/
def longNamedDirectory : Directory where
  files := [([longName], Text.utf8Bytes "print 1")]
  folders := []

def longNamedModule : CodeModule where
  name := longName
  entry := "main"
  locals := #[]
  constants := #[.int 1]
  code := #[.constant 0, .intToString, .callHost .writeLine, .ret]

theorem toList_longName : longName.toList = List.replicate 250 'n' :=
  String.toList_ofList

theorem read_longNamedDirectory :
    OperatingSystem.read longName longNamedDirectory = .ok (Text.utf8Bytes "print 1") := by
  have hslash : '/' ∉ longName.toList := by
    rw [toList_longName]
    decide +kernel
  exact Directory.read_of_file? rfl hslash (by decide +kernel) (by decide +kernel)
    List.lookup_cons_self

theorem stem?_longName : FileName.stem? longName = some longName := by
  have hlast : FileName.last? (List.replicate 250 'n') = some (List.replicate 250 'n') := by
    decide +kernel
  have hsplit : (FileName.split (List.replicate 250 'n')).1 = List.replicate 250 'n' := by
    decide +kernel
  rw [FileName.stem?, toList_longName, hlast, Option.map_some, hsplit]
  rfl

theorem write_longNamedDirectory :
    OperatingSystem.write (moduleFile longName) longNamedModule.encode longNamedDirectory =
      (.error .nameTooLong, longNamedDirectory) := by
  have hlong : Directory.nameLimit < (moduleFile longName).utf8ByteSize := by decide +kernel
  simp only [OperatingSystem.write, Directory.write, if_pos hlong]

theorem compile_longName : compile "print 1" longName = .ok longNamedModule :=
  eq_ok_of_toOption (by decide +kernel)

end SlotLang

import GrammarBindings.Proofs.GeneratedModules
import GrammarBindings.Proofs.NullBytes
import GrammarBindings.Proofs.UnreadableNumerals
import GrammarBindings.Run.Program

/-!
# How runs end

The result of a run is composed of those of its steps: the target is checked, the file is read, its
content is read as a grammar, the module is generated and written. Generation never fails on a
grammar that was read, and the failures of all other steps are told to the user, except for two:
a numeral that breaks reading off, and a path that is none because of a null byte.
-/

namespace GrammarBindings

open Agda

variable {settings : Settings} {env : Environment} {now : CivilMinute} {tree : FileTree}
  {args : List String} {o : Options} {path : String} {e : RunFailure}

/-- What was read as a grammar has a module, whatever the options. -/
theorem exists_generated {text : String} {g : Grammar} (h : Grammar.read text = .ok g)
    (time : String) (o : Options) :
    ∃ content, Agda.generate time o g = .ok ⟨agdaFile o, content⟩ :=
  exists_generate (Grammar.isTyped_dataDeclarations_of_read h) time o

section Steps

variable (settings env now tree)

theorem result_writeGenerated (f : GeneratedFile) :
    ((writeGenerated settings f).runOn tree).1.result =
      (tree.write (destination settings f.path) f.content.toUTF8).1.mapError
        (.ofFile (.unwritable (destination settings f.path))) := by
  rw [writeGenerated, Job.runOn_bind, Job.runOn_store]
  cases (tree.write (destination settings f.path) f.content.toUTF8).1 with
  | error e => rfl
  | ok => rfl

theorem result_generateFrom (o : Options) (r : Reading) :
    ((generateFrom settings env now o r).runOn tree).1.result = (do
      let g ← r.result.mapError .reading
      let f ← (Agda.generate (stamp settings env now).1 o g).mapError .generation
      ((writeGenerated settings f).runOn tree).1.result) := by
  rw [generateFrom]
  cases r.result with
  | error e => rfl
  | ok g =>
    rw [mapError_ok, ok_bind]
    dsimp only
    cases Agda.generate (stamp settings env now).1 o g with
    | error e => rfl
    | ok f =>
      rw [mapError_ok, ok_bind, Job.runOn_bind, Job.runOn_pure, Outcome.after]

theorem result_generate (o : Options) (path : String) :
    ((generate settings env now o path).runOn tree).1.result = (do
      o.target.checkServed.mapError .usage
      let bytes ← (tree.read path).mapError (.ofFile (.unreadable path))
      ((generateFrom settings env now o (Reading.ofBytes path bytes)).runOn tree).1.result) := by
  rw [generate]
  cases o.target.checkServed with
  | error e => rfl
  | ok =>
    rw [Job.runOn_bind, Job.runOn_load]
    cases tree.read path with
    | error e => rfl
    | ok bytes => rfl

theorem result_run (args : List String) :
    ((run settings env now args).runOn tree).1.result = (do
      match ← (CommandLine.resolve args).2.mapError .usage with
      | .print _ => return ()
      | .generate o path => ((generate settings env now o path).runOn tree).1.result) := by
  rw [run]
  cases CommandLine.resolve args with
  | mk warnings resolved =>
    cases resolved with
    | error e => rfl
    | ok resolution =>
      cases resolution with
      | print text => rfl
      | generate o path =>
        rw [Job.runOn_bind]
        rfl

end Steps

/-- The grammar text in the content of a file. -/
def HoldsText (bytes : ByteArray) (text : String) : Prop :=
  ∃ decoded, Text.decode bytes = .ok decoded ∧
    text = String.ofList (Text.unifyLineEnds decoded.toList)

/-- The command line asks for a module of the grammar whose text the tree has where it says. -/
def NamesGrammar (tree : FileTree) (args : List String) (text : String) : Prop :=
  ∃ warnings o path bytes, CommandLine.resolve args = (warnings, .ok (.generate o path)) ∧
    o.target.isServed = true ∧ tree.read path = .ok bytes ∧ HoldsText bytes text

/-- The command line names a grammar or leads to a destination that has a null byte. -/
def NamesNoPath (settings : Settings) (args : List String) : Prop :=
  ∃ warnings o path, CommandLine.resolve args = (warnings, .ok (.generate o path)) ∧
    (FileTree.hasNull path = true ∨ FileTree.hasNull (destination settings (agdaFile o)) = true)

theorem HoldsText.result_ofBytes {bytes : ByteArray} {text : String} (h : HoldsText bytes text) :
    (Reading.ofBytes path bytes).result = Grammar.read text := by
  obtain ⟨decoded, hdecode, rfl⟩ := h
  rw [Reading.ofBytes, hdecode]
  rfl

/-- The content of a file holds a text, or it is refused for its encoding. -/
theorem holdsText_or_encoding (path : String) (bytes : ByteArray) :
    (∃ text, HoldsText bytes text) ∨
      ∃ offset, (Reading.ofBytes path bytes).result = .error (.encoding path offset) := by
  cases hdecode : Text.decode bytes with
  | error offset =>
    refine .inr ⟨offset, ?_⟩
    rw [Reading.ofBytes, hdecode]
  | ok decoded => exact .inl ⟨_, decoded, hdecode, rfl⟩

theorem ReadFailure.IsBlamed.isTold {e : ReadFailure} (h : e.IsBlamed) :
    (RunFailure.reading e).isTold = true := by
  obtain ⟨fault, line, rfl⟩ := h
  rfl

theorem isTold_ofFile (error : String → UsageError) (fault : FileFault) :
    (RunFailure.ofFile error fault).isTold = true ∨
      fault = .nullByte ∧ RunFailure.ofFile error fault = .file .nullByte := by
  cases fault with
  | nullByte => exact .inr ⟨rfl, rfl⟩
  | _ => exact .inl rfl

theorem isTold_of_writeGenerated {f : GeneratedFile}
    (h : ((writeGenerated settings f).runOn tree).1.result = .error e) :
    e.isTold = true ∨
      e = .file .nullByte ∧ FileTree.hasNull (destination settings f.path) = true := by
  rw [result_writeGenerated, mapError_eq_error_iff] at h
  obtain ⟨fault, hwrite, rfl⟩ := h
  rcases isTold_ofFile (.unwritable _) fault with htold | ⟨rfl, hnull⟩
  · exact .inl htold
  · exact .inr ⟨hnull, FileTree.hasNull_of_write hwrite⟩

theorem isTold_of_generateFrom {bytes : ByteArray}
    (h : ((generateFrom settings env now o (Reading.ofBytes path bytes)).runOn tree).1.result =
      .error e) :
    e.isTold = true ∨
      (∃ f text, e = .reading (.numeral f) ∧ HoldsText bytes text ∧ Grammar.MeetsNumeral f text) ∨
      e = .file .nullByte ∧ FileTree.hasNull (destination settings (agdaFile o)) = true := by
  rw [result_generateFrom] at h
  rcases holdsText_or_encoding path bytes with ⟨text, htext⟩ | ⟨offset, hoffset⟩
  · rw [htext.result_ofBytes] at h
    rcases bind_eq_error_iff.1 h with h | ⟨g, hg, h⟩
    · obtain ⟨failure, hread, rfl⟩ := mapError_eq_error_iff.1 h
      rcases Grammar.blamed_or_meetsNumeral hread with hblamed | ⟨f, rfl, hmeets⟩
      · exact .inl hblamed.isTold
      · exact .inr (.inl ⟨f, text, rfl, htext, hmeets⟩)
    · obtain ⟨content, hgenerate⟩ :=
        exists_generated (mapError_eq_ok_iff.1 hg) (stamp settings env now).1 o
      rw [hgenerate, mapError_ok, ok_bind] at h
      rcases isTold_of_writeGenerated h with htold | hnull
      · exact .inl htold
      · exact .inr (.inr hnull)
  · rw [hoffset] at h
    cases h
    exact .inl rfl

theorem Target.checkServed_eq_ok_iff {t : Target} :
    t.checkServed = .ok () ↔ t.isServed = true := by
  rw [checkServed]
  split
  · next h => simp [h]
  · next h => simp [h]

/-- A run that ends with a failure which is not told has met a numeral or a null byte. -/
theorem isTold_of_run (h : ((run settings env now args).runOn tree).1.result = .error e) :
    e.isTold = true ∨
      (∃ f text, e = .reading (.numeral f) ∧ NamesGrammar tree args text ∧
        Grammar.MeetsNumeral f text) ∨
      e = .file .nullByte ∧ NamesNoPath settings args := by
  -- each step fails in a way that is told, or in one of the two others, or hands its result on
  rw [result_run] at h
  rcases bind_eq_error_iff.1 h with h₁ | ⟨resolution, hresolved, h₁⟩
  · obtain ⟨u, -, rfl⟩ := mapError_eq_error_iff.1 h₁
    exact .inl rfl
  cases resolution with
  | print text => cases h₁
  | generate o path =>
    have hargs : CommandLine.resolve args =
        ((CommandLine.resolve args).1, .ok (.generate o path)) :=
      Prod.ext rfl (mapError_eq_ok_iff.1 hresolved)
    dsimp only at h₁
    rw [result_generate] at h₁
    rcases bind_eq_error_iff.1 h₁ with h₂ | ⟨_, hserved, h₂⟩
    · obtain ⟨u, -, rfl⟩ := mapError_eq_error_iff.1 h₂
      exact .inl rfl
    have hserved := Target.checkServed_eq_ok_iff.1 (mapError_eq_ok_iff.1 hserved)
    rcases bind_eq_error_iff.1 h₂ with h₃ | ⟨bytes, hbytes, h₃⟩
    · obtain ⟨fault, hread, rfl⟩ := mapError_eq_error_iff.1 h₃
      rcases isTold_ofFile (.unreadable path) fault with htold | ⟨rfl, hnull⟩
      · exact .inl htold
      · exact .inr (.inr ⟨hnull, _, o, path, hargs, .inl (FileTree.hasNull_of_read hread)⟩)
    have hbytes := mapError_eq_ok_iff.1 hbytes
    rcases isTold_of_generateFrom h₃ with htold | ⟨f, text, rfl, htext, hmeets⟩ | ⟨rfl, hnull⟩
    · exact .inl htold
    · exact .inr (.inl ⟨f, text, rfl, ⟨_, o, path, bytes, hargs, hserved, hbytes, htext⟩, hmeets⟩)
    · exact .inr (.inr ⟨rfl, _, o, path, hargs, .inr hnull⟩)

theorem result_run_of_meetsNumeral {f : Text.NumeralFault} {text : String}
    (h : NamesGrammar tree args text) (hmeets : Grammar.MeetsNumeral f text) :
    ((run settings env now args).runOn tree).1.result = .error (.reading (.numeral f)) := by
  obtain ⟨warnings, o, path, bytes, hargs, hserved, hbytes, htext⟩ := h
  rw [result_run, hargs, mapError_ok, ok_bind]
  dsimp only
  rw [result_generate, Target.checkServed_eq_ok_iff.2 hserved, mapError_ok, ok_bind, hbytes,
    mapError_ok, ok_bind, result_generateFrom, htext.result_ofBytes,
    Grammar.read_eq_numeral_iff.2 hmeets]
  rfl

theorem exit_ofOutcome (sink : Log.Sink) (outcome : Outcome) :
    (Report.ofOutcome sink outcome).exit =
      match outcome.result with
      | .ok () => .ok 0
      | .error e => if e.isTold then .ok 1 else .error e := by
  rw [Report.ofOutcome]
  cases outcome.result with
  | ok => rfl
  | error e =>
    dsimp only
    split
    · rfl
    · rfl

/-- The exit code, or the failure that ends the program as it is. -/
def exitOf (settings : Settings) (env : Environment) (now : CivilMinute) (args : List String)
    (sink : Log.Sink) (tree : FileTree) : Except RunFailure Nat :=
  (Report.ofOutcome sink ((run settings env now args).runOn tree).1).exit

section Exits

variable (settings env now tree args) (sink : Log.Sink)

theorem exitOf_cases :
    exitOf settings env now args sink tree = .ok 0 ∨
      exitOf settings env now args sink tree = .ok 1 ∨
      (∃ f text, exitOf settings env now args sink tree = .error (.reading (.numeral f)) ∧
        NamesGrammar tree args text ∧ Grammar.MeetsNumeral f text) ∨
      exitOf settings env now args sink tree = .error (.file .nullByte) ∧
        NamesNoPath settings args := by
  rw [exitOf, exit_ofOutcome]
  cases hresult : ((run settings env now args).runOn tree).1.result with
  | ok => exact .inl rfl
  | error e =>
    rcases isTold_of_run hresult with htold | ⟨f, text, rfl, hnames, hmeets⟩ | ⟨rfl, hnull⟩
    · exact .inr (.inl (if_pos htold))
    · exact .inr (.inr (.inl ⟨f, text, rfl, hnames, hmeets⟩))
    · exact .inr (.inr (.inr ⟨rfl, hnull⟩))

theorem exitOf_eq_numeral_iff {f : Text.NumeralFault} :
    exitOf settings env now args sink tree = .error (.reading (.numeral f)) ↔
      ∃ text, NamesGrammar tree args text ∧ Grammar.MeetsNumeral f text := by
  constructor
  · intro h
    rcases exitOf_cases settings env now tree args sink with
      hexit | hexit | ⟨f', text, hexit, hnames, hmeets⟩ | ⟨hexit, -⟩
    · cases hexit.symm.trans h
    · cases hexit.symm.trans h
    · cases hexit.symm.trans h
      exact ⟨text, hnames, hmeets⟩
    · cases hexit.symm.trans h
  · rintro ⟨text, hnames, hmeets⟩
    rw [exitOf, exit_ofOutcome, result_run_of_meetsNumeral hnames hmeets]
    rfl

end Exits

/-- A text that is no grammar is blamed on a fault at a line, and a run ends with the code zero or
one, except where the first statement that cannot be interpreted meets a numeral that cannot be
read; that numeral then ends the run as it is. Apart from numerals, only a null byte in a path ends
a run without a code. -/
theorem told_unless_numeral_met (settings : Settings) (env : Environment) (now : CivilMinute)
    (args : List String) (sink : Log.Sink) (tree : FileTree) :
    (∀ text, (∃ g, Grammar.read text = .ok g) ∨
        (∃ fault line, Grammar.read text = .error (.text fault line)) ∨
          ∃ f, Grammar.read text = .error (.numeral f)) ∧
      (∀ text f, Grammar.read text = .error (.numeral f) ↔ Grammar.MeetsNumeral f text) ∧
      (∀ text f, Grammar.MeetsNumeral f text →
        ∃ s ∈ Grammar.statements text, ∃ t ∈ s.tokens, t.IsUnreadable f) ∧
      (exitOf settings env now args sink tree = .ok 0 ∨
        exitOf settings env now args sink tree = .ok 1 ∨
        (∃ f, exitOf settings env now args sink tree = .error (.reading (.numeral f))) ∨
        exitOf settings env now args sink tree = .error (.file .nullByte) ∧
          NamesNoPath settings args) ∧
      ∀ f, exitOf settings env now args sink tree = .error (.reading (.numeral f)) ↔
        ∃ text, NamesGrammar tree args text ∧ Grammar.MeetsNumeral f text := by
  refine ⟨?_, fun text f => Grammar.read_eq_numeral_iff, fun text f h => h.exists_isUnreadable,
    ?_, fun f => exitOf_eq_numeral_iff settings env now tree args sink⟩
  · intro text
    cases hread : Grammar.read text with
    | ok g => exact .inl ⟨g, rfl⟩
    | error e =>
      rcases Grammar.blamed_or_meetsNumeral hread with ⟨fault, line, rfl⟩ | ⟨f, rfl, -⟩
      · exact .inr (.inl ⟨fault, line, rfl⟩)
      · exact .inr (.inr ⟨f, rfl⟩)
  · rcases exitOf_cases settings env now tree args sink with
      hexit | hexit | ⟨f, -, hexit, -, -⟩ | hnull
    · exact .inl hexit
    · exact .inr (.inl hexit)
    · exact .inr (.inr (.inl ⟨f, hexit⟩))
    · exact .inr (.inr (.inr hnull))

/-- A digit that stands for no decimal one is lexed as part of a number, and then no fault is told
at all. -/
theorem read_superscript_level_untold :
    ¬ ((∃ g, Grammar.read "coercions Exp ² ;" = .ok g) ∨
      ∃ fault line, Grammar.read "coercions Exp ² ;" = .error (.text fault line)) := by
  have hread : Grammar.read "coercions Exp ² ;" = .error (.numeral (.malformed "²")) := by
    decide +kernel
  rw [hread]
  rintro (⟨g, h⟩ | ⟨fault, line, h⟩)
  · cases h
  · cases h

end GrammarBindings

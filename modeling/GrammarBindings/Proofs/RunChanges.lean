import GrammarBindings.Proofs.FileTreeChanges
import GrammarBindings.Proofs.RunOutcomes

/-!
# What runs change

A run either ends before anything is written, and then leaves the tree as it was, or it comes to
write the module of the grammar that it read. Writing is all that it does to the tree, so it changes
the file that it writes and makes directories on the way there, and if it fails in this, it has made
directories only.
-/

namespace GrammarBindings

open Agda FileTree

/-- The command line asks for no module, or there is none for its target or its grammar. -/
inductive EndsEarly (tree : FileTree) (args : List String) : Prop where
  | usage {e : UsageError} (resolved : (CommandLine.resolve args).2 = .error e)
  | printed {text : String} (resolved : (CommandLine.resolve args).2 = .ok (.print text))
  | unserved {o : Options} {path : String}
      (resolved : (CommandLine.resolve args).2 = .ok (.generate o path))
      (target : o.target.isServed = false)
  | unreadable {o : Options} {path : String} {fault : FileFault}
      (resolved : (CommandLine.resolve args).2 = .ok (.generate o path))
      (file : tree.read path = .error fault)
  | uninterpretable {o : Options} {path : String} {bytes : ByteArray} {e : ReadFailure}
      (resolved : (CommandLine.resolve args).2 = .ok (.generate o path))
      (file : tree.read path = .ok bytes) (content : (Reading.ofBytes path bytes).result = .error e)

/-- The command line asks for the module of the grammar whose text the tree has where it says. -/
structure ComesToWrite (settings : Settings) (env : Environment) (now : CivilMinute)
    (tree : FileTree) (args : List String) (o : Options) (path : String) (g : Grammar)
    (f : GeneratedFile) : Prop where
  resolved : (CommandLine.resolve args).2 = .ok (.generate o path)
  served : o.target.isServed = true
  read : ∃ bytes text, tree.read path = .ok bytes ∧ HoldsText bytes text ∧
    Grammar.read text = .ok g
  generated : Agda.generate (stamp settings env now).1 o g = .ok f

section Steps

variable (settings : Settings) (env : Environment) (now : CivilMinute) (tree : FileTree)

theorem tree_writeGenerated (f : GeneratedFile) :
    ((writeGenerated settings f).runOn tree).2 =
      (tree.write (destination settings f.path) f.content.toUTF8).2 := by
  rw [writeGenerated, Job.runOn_bind, Job.runOn_store]
  generalize tree.write (destination settings f.path) f.content.toUTF8 = written
  obtain ⟨result, after⟩ := written
  cases result with
  | error e => rfl
  | ok => rfl

theorem tree_generateFrom (o : Options) (r : Reading) :
    ((generateFrom settings env now o r).runOn tree).2 =
      match r.result with
      | .error _ => tree
      | .ok g =>
        match Agda.generate (stamp settings env now).1 o g with
        | .error _ => tree
        | .ok f => (tree.write (destination settings f.path) f.content.toUTF8).2 := by
  rw [generateFrom]
  cases r.result with
  | error e => rfl
  | ok g =>
    dsimp only
    cases Agda.generate (stamp settings env now).1 o g with
    | error e => rfl
    | ok f => rw [Job.runOn_bind, Job.runOn_pure, tree_writeGenerated]

theorem tree_generate (o : Options) (path : String) :
    ((generate settings env now o path).runOn tree).2 =
      match o.target.checkServed with
      | .error _ => tree
      | .ok () =>
        match tree.read path with
        | .error _ => tree
        | .ok bytes =>
          ((generateFrom settings env now o (Reading.ofBytes path bytes)).runOn tree).2 := by
  rw [generate]
  cases o.target.checkServed with
  | error e => rfl
  | ok =>
    rw [Job.runOn_bind, Job.runOn_load]
    cases tree.read path with
    | error e => rfl
    | ok bytes => rfl

theorem tree_run (args : List String) :
    ((run settings env now args).runOn tree).2 =
      match (CommandLine.resolve args).2 with
      | .error _ => tree
      | .ok (.print _) => tree
      | .ok (.generate o path) => ((generate settings env now o path).runOn tree).2 := by
  rw [run]
  cases CommandLine.resolve args with
  | mk warnings resolved =>
    cases resolved with
    | error e => rfl
    | ok resolution =>
      cases resolution with
      | print text => rfl
      | generate o path =>
        rw [Job.runOn_bind]
        rfl

end Steps

variable {settings : Settings} {env : Environment} {now : CivilMinute} {tree : FileTree}
  {args : List String} {o : Options} {path : String} {g : Grammar} {f : GeneratedFile}

theorem EndsEarly.tree_run (h : EndsEarly tree args) (settings : Settings) (env : Environment)
    (now : CivilMinute) : ((run settings env now args).runOn tree).2 = tree := by
  rw [GrammarBindings.tree_run]
  cases h with
  | usage resolved => rw [resolved]
  | printed resolved => rw [resolved]
  | @unserved o path resolved target =>
    rw [resolved]
    dsimp only
    rw [tree_generate]
    cases hserved : o.target.checkServed with
    | error e => rfl
    | ok =>
      rw [Target.checkServed_eq_ok_iff.1 hserved] at target
      cases target
  | @unreadable o path fault resolved file =>
    rw [resolved]
    dsimp only
    rw [tree_generate, file]
    cases o.target.checkServed with
    | error e => rfl
    | ok => rfl
  | @uninterpretable o path bytes e resolved file content =>
    rw [resolved]
    dsimp only
    rw [tree_generate, file]
    cases o.target.checkServed with
    | error e => rfl
    | ok =>
      dsimp only
      rw [tree_generateFrom, content]

theorem endsEarly_or_comesToWrite (settings : Settings) (env : Environment) (now : CivilMinute)
    (tree : FileTree) (args : List String) :
    EndsEarly tree args ∨ ∃ o path g f, ComesToWrite settings env now tree args o path g f := by
  cases hresolved : (CommandLine.resolve args).2 with
  | error e => exact .inl (.usage hresolved)
  | ok resolution =>
    cases resolution with
    | print text => exact .inl (.printed hresolved)
    | generate o path =>
      cases hserved : o.target.isServed with
      | false => exact .inl (.unserved hresolved hserved)
      | true =>
        cases hfile : tree.read path with
        | error fault => exact .inl (.unreadable hresolved hfile)
        | ok bytes =>
          rcases holdsText_or_encoding path bytes with ⟨text, htext⟩ | ⟨offset, hoffset⟩
          · cases hread : Grammar.read text with
            | error e =>
              exact .inl (.uninterpretable hresolved hfile (htext.result_ofBytes.trans hread))
            | ok g =>
              obtain ⟨content, hgenerate⟩ :=
                exists_generated hread (stamp settings env now).1 o
              exact .inr ⟨o, path, g, _, hresolved, hserved, ⟨bytes, text, hfile, htext, hread⟩,
                hgenerate⟩
          · exact .inl (.uninterpretable hresolved hfile hoffset)

/-- A run that was asked for a module and is successful has come to write it. -/
theorem comesToWrite_of_result (hresolved : (CommandLine.resolve args).2 = .ok (.generate o path))
    (hresult : ((run settings env now args).runOn tree).1.result = .ok ()) :
    ∃ g content, ComesToWrite settings env now tree args o path g ⟨agdaFile o, content⟩ := by
  rw [result_run, hresolved, mapError_ok, ok_bind] at hresult
  dsimp only at hresult
  rw [result_generate] at hresult
  obtain ⟨⟨⟩, hserved, hresult⟩ := bind_eq_ok_iff.1 hresult
  obtain ⟨bytes, hfile, hresult⟩ := bind_eq_ok_iff.1 hresult
  rw [result_generateFrom] at hresult
  obtain ⟨g, hg, hresult⟩ := bind_eq_ok_iff.1 hresult
  obtain ⟨f, hf, -⟩ := bind_eq_ok_iff.1 hresult
  have hserved := Target.checkServed_eq_ok_iff.1 (mapError_eq_ok_iff.1 hserved)
  have hg := mapError_eq_ok_iff.1 hg
  have hgenerate := mapError_eq_ok_iff.1 hf
  obtain ⟨content, -, rfl⟩ := map_eq_ok_iff.1 hgenerate
  rcases holdsText_or_encoding path bytes with ⟨text, htext⟩ | ⟨offset, hoffset⟩
  · rw [htext.result_ofBytes] at hg
    exact ⟨g, content, hresolved, hserved,
      ⟨bytes, text, mapError_eq_ok_iff.1 hfile, htext, hg⟩, hgenerate⟩
  · rw [hoffset] at hg
    cases hg

namespace ComesToWrite

/-- What comes to write does nothing else. -/
theorem tree_run (h : ComesToWrite settings env now tree args o path g f) :
    ((run settings env now args).runOn tree).2 =
      (tree.write (destination settings f.path) f.content.toUTF8).2 := by
  obtain ⟨bytes, text, hfile, htext, hread⟩ := h.read
  rw [GrammarBindings.tree_run, h.resolved]
  dsimp only
  rw [tree_generate, Target.checkServed_eq_ok_iff.2 h.served, hfile]
  dsimp only
  rw [tree_generateFrom, htext.result_ofBytes, hread]
  dsimp only
  rw [h.generated]

theorem result_run (h : ComesToWrite settings env now tree args o path g f) :
    ((run settings env now args).runOn tree).1.result =
      (tree.write (destination settings f.path) f.content.toUTF8).1.mapError
        (.ofFile (.unwritable (destination settings f.path))) := by
  obtain ⟨bytes, text, hfile, htext, hread⟩ := h.read
  rw [GrammarBindings.result_run, h.resolved, mapError_ok, ok_bind]
  dsimp only
  rw [result_generate, Target.checkServed_eq_ok_iff.2 h.served, mapError_ok, ok_bind, hfile,
    mapError_ok, ok_bind, result_generateFrom, htext.result_ofBytes, hread, mapError_ok, ok_bind,
    h.generated, mapError_ok, ok_bind, result_writeGenerated]

end ComesToWrite

theorem exitOf_eq_zero_iff {sink : Log.Sink} :
    exitOf settings env now args sink tree = .ok 0 ↔
      ((run settings env now args).runOn tree).1.result = .ok () := by
  rw [exitOf, exit_ofOutcome]
  cases ((run settings env now args).runOn tree).1.result with
  | ok => simp
  | error e =>
    dsimp only
    split
    · simp
    · simp

/-- A run that ends early leaves the tree as it was, and every other run comes to write a module. If
it is then successful, it has written the file and made the directories that the path of the file
needs, and changed nothing else, just as if the content had been put under a fresh name first and
moved to its place. If not, it has made directories only. -/
theorem run_changes (settings : Settings) (env : Environment) (now : CivilMinute)
    (args : List String) (sink : Log.Sink) (tree : FileTree) :
    let after := ((run settings env now args).runOn tree).2
    (EndsEarly tree args → after = tree) ∧
      (EndsEarly tree args ∨ ∃ o path g f, ComesToWrite settings env now tree args o path g f) ∧
      (∀ o path, (CommandLine.resolve args).2 = .ok (.generate o path) →
        exitOf settings env now args sink tree = .ok 0 →
          ∃ g content,
            ComesToWrite settings env now tree args o path g ⟨agdaFile o, content⟩ ∧
            Written (destination settings (agdaFile o)) content.toUTF8 tree after ∧
            let target := destination settings (agdaFile o)
            let made := (tree.makeDirectories (Path.directory target) true).2
            ∀ temporary, temporary ≠ [] → made.get? temporary = none → ∀ l,
              ((made.put temporary (.file content.toUTF8)).rename temporary
                (tree.locate target)).get? l = after.get? l) ∧
      ∀ o path g f, ComesToWrite settings env now tree args o path g f →
        exitOf settings env now args sink tree ≠ .ok 0 →
          MadeDirectories (destination settings f.path) tree after := by
  intro after
  have hcases := endsEarly_or_comesToWrite settings env now tree args
  refine ⟨fun h => h.tree_run settings env now, hcases, ?_, ?_⟩
  · intro o path hresolved hexit
    obtain ⟨g, content, hwrites⟩ := comesToWrite_of_result hresolved (exitOf_eq_zero_iff.1 hexit)
    have hresult := hwrites.result_run.symm.trans (exitOf_eq_zero_iff.1 hexit)
    have hok := mapError_eq_ok_iff.1 hresult
    have hafter : after = _ := hwrites.tree_run
    rw [hafter]
    rcases madeDirectories_or_written tree (destination settings (agdaFile o)) content.toUTF8 with
      ⟨e, herror, -⟩ | ⟨-, hwritten⟩
    · cases herror.symm.trans hok
    · refine ⟨g, content, hwrites, hwritten, fun temporary htemporary hfresh l => ?_⟩
      exact get?_rename_of_write hok htemporary hfresh l
  · intro o path g f hwrites hexit
    have hafter : after = _ := hwrites.tree_run
    rw [hafter]
    rcases madeDirectories_or_written tree (destination settings f.path) f.content.toUTF8 with
      ⟨e, -, hmade⟩ | ⟨hok, -⟩
    · exact hmade
    · refine absurd (exitOf_eq_zero_iff.2 ?_) hexit
      rw [hwrites.result_run, hok, mapError_ok]

/-- Three directories are made for the module of a grammar beside which there is nothing yet. -/
theorem run_changes_calc :
    let settings : Settings := { outDirectory := "out/./x", timestamp? := some "now" }
    let tree : FileTree :=
      ⟨[(["home"], .directory), (["home", "Calc.cf"], .file "Add . Exp ::= Exp ;".toUTF8)],
        ["home"]⟩
    let after := ((run settings (fun _ => none) ⟨2024, 1, 1, 0, 0⟩
      ["haskell", "-d", "Calc.cf"]).runOn tree).2
    tree.locate "out/./x/Calc/AST.agda" = ["home", "out", "x", "Calc", "AST.agda"] ∧
      ∃ content : String, Written "out/./x/Calc/AST.agda" content.toUTF8 tree after := by
  intro settings tree after
  have hmode : Mode.ofWords ["haskell", "-d", "Calc.cf"] =
      .generate .haskell ["-d", "Calc.cf"] false := by decide +kernel
  have hline : readOptionLine .haskell ["-d", "Calc.cf"] false =
      .ok ({ inDirectory := true, grammarName := "Calc" }, "Calc.cf") := by decide +kernel
  have hresolved : (CommandLine.resolve ["haskell", "-d", "Calc.cf"]).2 =
      .ok (.generate { inDirectory := true, grammarName := "Calc" } "Calc.cf") := by
    rw [CommandLine.resolve, hmode]
    dsimp only
    rw [hline]
    rfl
  have hexit : exitOf settings (fun _ => none) ⟨2024, 1, 1, 0, 0⟩ ["haskell", "-d", "Calc.cf"] .bare
      tree = .ok 0 := by
    decide +kernel
  have hdestination :
      destination settings (agdaFile { inDirectory := true, grammarName := "Calc" }) =
        "out/./x/Calc/AST.agda" := by
    decide +kernel
  obtain ⟨-, -, hsuccess, -⟩ := run_changes settings (fun _ => none) ⟨2024, 1, 1, 0, 0⟩
    ["haskell", "-d", "Calc.cf"] .bare tree
  obtain ⟨g, content, -, hwritten, -⟩ := hsuccess _ _ hresolved hexit
  exact ⟨by decide, content, hdestination ▸ hwritten⟩

end GrammarBindings

import GrammarBindings.Proofs.Destinations
import GrammarBindings.Proofs.RepeatedWriting
import GrammarBindings.Proofs.RunChanges

/-!
# Running again

The file of a grammar ends in the extension of grammars and that of a module in another one, so a
run never writes over the grammar that it reads, wherever the paths of the two lead. A second run
therefore reads what the first one read. With a fixed time it generates the same module, and writing
this again changes nothing.
-/

namespace GrammarBindings

open Agda

namespace Path

variable {p : String}

theorem pieces_intercalate {cs : List String} (hne : cs ≠ []) (h : ∀ c ∈ cs, '/' ∉ c.toList) :
    pieces ("/".intercalate cs) = cs := by
  rw [pieces, splitOn_intercalate rfl hne h]
  simp [Function.comp_def]

/-- The normal form of a path leads through its components. -/
theorem steps_normal (h : components p ≠ []) : steps (normal p) = components p := by
  have hmem : ∀ c ∈ components p, c ≠ "" ∧ '/' ∉ c.toList := by
    intro c hc
    have hstep : c ∈ steps p := List.mem_of_mem_filter hc
    exact ⟨of_decide_eq_true (List.mem_filter.1 hstep).2,
      slash_notMem_pieces (List.mem_of_mem_filter hstep)⟩
  have hsteps : steps ("/".intercalate (components p)) = components p := by
    rw [steps, pieces_intercalate h fun c hc => (hmem c hc).2, List.filter_eq_self]
    exact fun c hc => decide_eq_true (hmem c hc).1
  have hpath : root p ++ "/".intercalate (components p) =
      String.ofList ((root p).toList ++ ("/".intercalate (components p)).toList) := by
    rw [String.ofList_append, String.ofList_toList, String.ofList_toList]
  have hnormal : steps (root p ++ "/".intercalate (components p)) = components p := by
    rw [hpath, steps_slashes_append fun c hc => mem_root hc, String.ofList_toList, hsteps]
  rw [normal]
  split
  · next hempty =>
    rw [String.isEmpty_iff.1 hempty, steps_empty] at hnormal
    exact absurd hnormal.symm h
  · exact hnormal

theorem lastPiece_normal (h : baseName p ≠ "") (hnamed : lastPiece (normal p) ≠ "") :
    lastPiece (normal p) = baseName p := by
  have hcomponents : components p ≠ [] := by
    intro hnil
    rw [baseName, hnil] at h
    exact h rfl
  have hsteps := steps_of_lastPiece hnamed
  rw [steps_normal hcomponents] at hsteps
  rw [baseName, hsteps, List.getLast?_concat]
  rfl

/-- No grammar file is called as a module is. -/
theorem baseName_ne_of_isGrammarFile (h : isGrammarFile p = true) (name : String) :
    baseName p ≠ name ++ ".agda" := by
  obtain ⟨stem, e, he, hbase⟩ := exists_baseName h
  have hlast : ∀ e ∈ grammarExtensions, ('.' :: e.toList).getLast? ≠ some 'a' := by decide
  intro hname
  refine hlast e he ?_
  have htext := congrArg List.getLast? (hbase.symm.trans (congrArg String.toList hname))
  rwa [List.getLast?_append_of_ne_nil _ (List.cons_ne_nil _ _), String.toList_append,
    List.getLast?_append_of_ne_nil _ (by decide)] at htext

end Path

theorem accepted_of_resolve {args : List String} {o : Options} {path : String}
    (h : (CommandLine.resolve args).2 = .ok (.generate o path)) :
    ∃ words, Accepted words o path := by
  rw [CommandLine.resolve] at h
  split at h
  · cases h
  · cases h
  · next target words multilingual _ =>
    obtain ⟨⟨o', path'⟩, hread, hresolution⟩ := map_eq_ok_iff.1 h
    cases hresolution
    exact ⟨words, .optionLine target multilingual hread⟩
  · rw [CommandLine.resolveSingleDash] at h
    split at h
    · obtain ⟨⟨o', path'⟩, hread, hresolution⟩ := map_eq_ok_iff.1 h
      cases hresolution
      exact ⟨args, .singleDash hread⟩
    · cases h

/-- The grammar that is read is at another place than the module that is written. -/
theorem Accepted.locate_ne_destination {words : List String} {o : Options} {path : String}
    (h : Accepted words o path) (settings : Settings) {tree : FileTree} {bytes : ByteArray}
    (hread : tree.read path = .ok bytes) :
    tree.locate (Path.normal path) ≠ tree.locate (destination settings (agdaFile o)) := by
  have hfile := h.namesFile.isGrammarFile
  obtain ⟨hpath, directory, henter, -⟩ :=
    FileTree.find_eq_file_iff.1 (FileTree.read_eq_ok_iff.1 hread)
  have hbase : Path.baseName path ≠ "" := by
    obtain ⟨stem, e, -, hbase⟩ := Path.exists_baseName hfile
    rintro hempty
    rw [hempty] at hbase
    simp at hbase
  have hgrammar : IsPart o.grammarName := h.namesFile.grammarName ▸ isPart_grammarName path
  have hname : IsPart "AST" := ⟨by decide, by decide⟩
  have hextension : "agda" ≠ "" := by decide
  obtain ⟨front, last, -, hpieces⟩ := exists_pieces_fileName hgrammar hname (by decide) hextension
    (by decide)
  have hdown : Path.IsDownward (agdaFile o) :=
    isDownward_fileName hgrammar hname (by decide) hextension (by decide)
  have hlocate := locate_destination hdown settings tree
  rw [agdaFile, hpieces, ← List.append_assoc] at hlocate
  rw [hpath.locate_eq henter, agdaFile, hlocate, Path.lastPiece_normal hbase hpath.named]
  intro heq
  have hname := List.append_inj_right' heq rfl
  exact Path.baseName_ne_of_isGrammarFile hfile last (List.singleton_inj.1 hname)

section Again

variable {settings : Settings} {env : Environment} {now : CivilMinute} {tree after : FileTree}
  {args : List String} {o : Options} {path time : String} {g : Grammar} {content : String}

/-- A time that is set is stamped, whatever the environment and the present say. -/
theorem stamp_of_timestamp (h : settings.timestamp?.bind nonempty? = some time) (env : Environment)
    (now : CivilMinute) : (stamp settings env now).1 = time := by
  rw [stamp, h]

/-- What a run reads and generates is read and generated again after the module was written. -/
theorem ComesToWrite.again
    (h : ComesToWrite settings env now tree args o path g ⟨agdaFile o, content⟩)
    (htime : settings.timestamp?.bind nonempty? = some time)
    (hwrite : tree.write (destination settings (agdaFile o)) content.toUTF8 = (.ok (), after))
    (env' : Environment) (now' : CivilMinute) :
    ComesToWrite settings env' now' after args o path g ⟨agdaFile o, content⟩ := by
  obtain ⟨bytes, text, hfile, htext, hread⟩ := h.read
  obtain ⟨words, haccepted⟩ := accepted_of_resolve h.resolved
  have hplace := haccepted.locate_ne_destination settings hfile
  have hfind := (FileTree.keepsOthers_of_write hwrite).find_file hplace
    (FileTree.read_eq_ok_iff.1 hfile)
  refine ⟨h.resolved, h.served, ⟨bytes, text, FileTree.read_eq_ok_iff.2 hfind, htext, hread⟩, ?_⟩
  rw [stamp_of_timestamp htime, ← stamp_of_timestamp htime env now]
  exact h.generated

/-- A run that is successful is successful again on the tree that it leaves, and leaves this tree
exactly as it is, in whatever environment and at whatever time, provided that the time to be stamped
is set. -/
theorem run_again (settings : Settings) {time : String}
    (htime : settings.timestamp?.bind nonempty? = some time) (env env' : Environment)
    (now now' : CivilMinute) (args : List String) (sink sink' : Log.Sink) (tree : FileTree)
    (hexit : exitOf settings env now args sink tree = .ok 0) :
    let after := ((run settings env now args).runOn tree).2
    exitOf settings env' now' args sink' after = .ok 0 ∧
      ((run settings env' now' args).runOn after).2 = after := by
  intro after
  have hresult := exitOf_eq_zero_iff.1 hexit
  cases hresolved : (CommandLine.resolve args).2 with
  | error e =>
    rw [result_run, hresolved] at hresult
    cases hresult
  | ok resolution =>
    cases resolution with
    | print text =>
      have hearly : ∀ t, EndsEarly t args := fun _ => .printed hresolved
      refine ⟨exitOf_eq_zero_iff.2 ?_, (hearly after).tree_run settings env' now'⟩
      rw [result_run, hresolved]
      rfl
    | generate o path =>
      obtain ⟨g, content, hwrites⟩ := comesToWrite_of_result hresolved hresult
      have hok := mapError_eq_ok_iff.1 (hwrites.result_run.symm.trans hresult)
      have hwrite : tree.write (destination settings (agdaFile o)) content.toUTF8 =
          (.ok (), after) :=
        Prod.ext hok hwrites.tree_run.symm
      have hagain := hwrites.again htime hwrite env' now'
      have hwrite' := FileTree.write_of_write hwrite
      refine ⟨exitOf_eq_zero_iff.2 ?_, ?_⟩
      · rw [hagain.result_run, hwrite', mapError_ok]
      · rw [hagain.tree_run, hwrite']

/-- The grammar lies in the directory that the module goes to, and the second run is asked for at a
later time and with an epoch set. -/
theorem run_again_calc :
    let settings : Settings := { outDirectory := "out/..", timestamp? := some "now" }
    let tree : FileTree :=
      ⟨[(["home"], .directory), (["home", "Calc.cf"], .file "Add . Exp ::= Exp ;".toUTF8)],
        ["home"]⟩
    let args := ["haskell", "Calc.cf"]
    let env : Environment := fun _ => none
    let env' : Environment := fun name => if name = "SOURCE_DATE_EPOCH" then some "0" else none
    let after := ((run settings env ⟨2024, 1, 1, 0, 0⟩ args).runOn tree).2
    exitOf settings env ⟨2024, 1, 1, 0, 0⟩ args .bare tree = .ok 0 ∧ after.entries.length = 4 ∧
      exitOf settings env' ⟨2025, 7, 31, 23, 59⟩ args .bare after = .ok 0 ∧
      ((run settings env' ⟨2025, 7, 31, 23, 59⟩ args).runOn after).2 = after := by
  intro settings tree args env env' after
  have hexit : exitOf settings env ⟨2024, 1, 1, 0, 0⟩ args .bare tree = .ok 0 := by
    decide +kernel
  refine ⟨hexit, by decide +kernel, ?_⟩
  exact run_again settings rfl env env' ⟨2024, 1, 1, 0, 0⟩ ⟨2025, 7, 31, 23, 59⟩ args .bare .bare
    tree hexit

end Again

end GrammarBindings

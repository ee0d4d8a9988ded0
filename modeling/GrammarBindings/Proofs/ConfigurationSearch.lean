import GrammarBindings.Proofs.Locations
import GrammarBindings.Proofs.LongNumerals
import GrammarBindings.Run.Program

/-!
# The search for a configuration

A search comes to the first file that says anything. It passes over files that are missing, cannot
be read or are no TOML, and those with a table that says nothing. Bytes that are no UTF-8 and
numerals with too many digits are not passed over, nor is a file of which it cannot be told whether
it is there: they break the search off, and with it every program, whatever it was asked to do.
-/

namespace GrammarBindings

/-- What a system answers to a job that only asks and reads, for whatever reason it may fail. -/
structure Answers where
  workingDirectory : Except FileFault String
  holds : String → Except FileFault Bool
  read : String → Except FileFault ByteArray

def FileTree.answers (tree : FileTree) : Answers where
  workingDirectory := .ok (absolutePath tree.workingDirectory)
  holds := tree.holds
  read := tree.read

namespace Job

variable {α β : Type} (answers : Answers)

/-- The value of a job that only asks and reads. -/
def valueOn : Job α → Option α
  | done a => some a
  | locate next => (next answers.workingDirectory).valueOn
  | ask path next => (next (answers.holds path)).valueOn
  | read path next => (next (answers.read path)).valueOn
  | write _ _ _ => none

@[simp] theorem valueOn_workingDirectory :
    workingDirectory.valueOn answers = some answers.workingDirectory := rfl

@[simp] theorem valueOn_holds (path : String) :
    (holds path).valueOn answers = some (answers.holds path) := rfl

@[simp] theorem valueOn_load (path : String) :
    (load path).valueOn answers = some (answers.read path) := rfl

@[simp] theorem valueOn_bind (j : Job α) (f : α → Job β) :
    (j >>= f).valueOn answers = (j.valueOn answers).bind fun a => (f a).valueOn answers := by
  change (j.bind f).valueOn answers = _
  induction j with
  | done a => rfl
  | locate next ih => exact ih answers.workingDirectory
  | ask path next ih => exact ih (answers.holds path)
  | read path next ih => exact ih (answers.read path)
  | write path content next => rfl

/-- A job that only asks and reads leaves the tree as it was. -/
theorem runOn_of_valueOn {tree : FileTree} {j : Job α} {a : α}
    (h : j.valueOn tree.answers = some a) : j.runOn tree = (a, tree) := by
  induction j with
  | done b =>
    obtain rfl : b = a := Option.some.inj h
    rfl
  | locate next ih => exact ih _ h
  | ask path next ih =>
    simp only [valueOn, FileTree.answers] at h
    exact ih (tree.holds path) h
  | read path next ih =>
    simp only [valueOn, FileTree.answers] at h
    exact ih (tree.read path) h
  | write path content next => cases h

end Job

namespace Configuration

/-- There is something at the path, and this comes of reading it. -/
structure Reads (answers : Answers) (path : String) (r : Except FileFault ByteArray) : Prop where
  there : answers.holds path = .ok true
  read : answers.read path = r

/-- A file that is missing, that is there and cannot be read, or that is no TOML. -/
inductive IsPassedOver (answers : Answers) (path : String) : Prop
  | absent (h : answers.holds path = .ok false) : IsPassedOver answers path
  | unreadable {fault : FileFault} (h : Reads answers path (.error fault))
      (hpath : fault ≠ .nullByte) : IsPassedOver answers path
  | malformed {bytes : ByteArray} {text : String} (h : Reads answers path (.ok bytes))
      (hdecode : Text.decode bytes = .ok text) (hread : Toml.read text = .error .malformed) :
      IsPassedOver answers path

inductive HoldsTable (t : Toml.Table) (answers : Answers) (path : String) : Prop
  | mk {bytes : ByteArray} {text : String} (h : Reads answers path (.ok bytes))
      (hdecode : Text.decode bytes = .ok text) (hread : Toml.read text = .ok t) :
      HoldsTable t answers path

/-- A file that no search gets past: it cannot be told whether it is there, its path is none, it is
not UTF-8, or a numeral in it has too many digits. -/
inductive Obstructs (answers : Answers) (path : String) : ConfigurationFault → Prop
  | untold {fault : FileFault} (h : answers.holds path = .error fault) :
      Obstructs answers path (.file fault)
  | nullByte (h : Reads answers path (.error .nullByte)) : Obstructs answers path (.file .nullByte)
  | encoding {bytes : ByteArray} {offset : Nat} (h : Reads answers path (.ok bytes))
      (hdecode : Text.decode bytes = .error offset) : Obstructs answers path .encoding
  | numeral {bytes : ByteArray} {text : String} {n : Nat} (h : Reads answers path (.ok bytes))
      (hdecode : Text.decode bytes = .ok text)
      (hread : Toml.read text = .error (.numeral (.tooLong n))) (hlong : Text.maxDigits < n)
      (hdigits : n ≤ text.toList.countP Text.isAsciiDigit) :
      Obstructs answers path (.numeral (.tooLong n))

/-- What is said by a file, if it is there. -/
def consult (answers : Answers) (path : String) : Except ConfigurationFault (Option Overrides) :=
  match answers.holds path with
  | .error fault => .error (.file fault)
  | .ok false => .ok none
  | .ok true => ofReading path (answers.read path)

section Files

variable {answers : Answers} {path : String} {r : Except FileFault ByteArray} {t : Toml.Table}
  {fault : ConfigurationFault}

theorem Reads.consult (h : Reads answers path r) : consult answers path = ofReading path r := by
  rw [Configuration.consult, h.there, h.read]

theorem file_cases (answers : Answers) (path : String) :
    IsPassedOver answers path ∨ (∃ t, HoldsTable t answers path) ∨
      ∃ fault, Obstructs answers path fault := by
  cases hholds : answers.holds path with
  | error fault => exact .inr (.inr ⟨_, .untold hholds⟩)
  | ok there =>
    cases there with
    | false => exact .inl (.absent hholds)
    | true =>
      have hreads : Reads answers path (answers.read path) := ⟨hholds, rfl⟩
      cases hr : answers.read path with
      | error fault =>
        rw [hr] at hreads
        by_cases hnull : fault = .nullByte
        · exact .inr (.inr ⟨_, .nullByte (hnull ▸ hreads)⟩)
        · exact .inl (.unreadable hreads hnull)
      | ok bytes =>
        rw [hr] at hreads
        cases hdecode : Text.decode bytes with
        | error offset => exact .inr (.inr ⟨_, .encoding hreads hdecode⟩)
        | ok text =>
          cases hread : Toml.read text with
          | ok t => exact .inr (.inl ⟨t, .mk hreads hdecode hread⟩)
          | error e =>
            cases e with
            | malformed => exact .inl (.malformed hreads hdecode hread)
            | numeral f =>
              obtain ⟨n, rfl, hlong, hdigits⟩ := Toml.hasLongNumeral_of_read hread
              exact .inr (.inr ⟨_, .numeral hreads hdecode hread hlong hdigits⟩)

theorem IsPassedOver.consult (h : IsPassedOver answers path) :
    consult answers path = .ok none := by
  cases h with
  | absent h => rw [Configuration.consult, h]
  | @unreadable fault h hpath =>
    rw [h.consult]
    cases fault with
    | nullByte => exact absurd rfl hpath
    | _ => rfl
  | malformed h hdecode hread => simp only [h.consult, ofReading, ofBytes, hdecode, hread]

theorem HoldsTable.consult (h : HoldsTable t answers path) :
    consult answers path = .ok ((section? path t).map Overrides.ofTable) := by
  obtain ⟨h, hdecode, hread⟩ := h
  simp only [h.consult, ofReading, ofBytes, hdecode, hread]

theorem Obstructs.consult (h : Obstructs answers path fault) :
    consult answers path = .error fault := by
  cases h with
  | untold h => rw [Configuration.consult, h]
  | nullByte h => rw [h.consult, ofReading]
  | encoding h hdecode => rw [h.consult, ofReading, ofBytes, hdecode]
  | numeral h hdecode hread => simp only [h.consult, ofReading, ofBytes, hdecode, hread]

theorem consult_eq_error_iff :
    consult answers path = .error fault ↔ Obstructs answers path fault := by
  refine ⟨fun h => ?_, Obstructs.consult⟩
  rcases file_cases answers path with hpassed | ⟨t, htable⟩ | ⟨fault', hobstructs⟩
  · cases hpassed.consult.symm.trans h
  · cases htable.consult.symm.trans h
  · cases hobstructs.consult.symm.trans h
    exact hobstructs

/-- A file says nothing if it is passed over or its table has no settings. -/
theorem consult_eq_none_iff :
    consult answers path = .ok none ↔
      IsPassedOver answers path ∨ ∃ t, HoldsTable t answers path ∧ section? path t = none := by
  constructor
  · intro h
    rcases file_cases answers path with hpassed | ⟨t, htable⟩ | ⟨fault, hobstructs⟩
    · exact .inl hpassed
    · have hnone := Except.ok.inj (htable.consult.symm.trans h)
      exact .inr ⟨t, htable, Option.map_eq_none_iff.1 hnone⟩
    · cases hobstructs.consult.symm.trans h
  · rintro (hpassed | ⟨t, htable, hsection⟩)
    · exact hpassed.consult
    · rw [htable.consult, hsection, Option.map_none]

end Files

/-- What the first one says that says anything. -/
def firstSaid : List (Except ConfigurationFault (Option Overrides)) →
    Except ConfigurationFault Overrides
  | [] => .ok {}
  | .error e :: _ => .error e
  | .ok (some o) :: _ => .ok o
  | .ok none :: rs => firstSaid rs

theorem firstSaid_cons_eq_error_iff {r : Except ConfigurationFault (Option Overrides)}
    {rs : List (Except ConfigurationFault (Option Overrides))} {fault : ConfigurationFault} :
    firstSaid (r :: rs) = .error fault ↔
      r = .error fault ∨ r = .ok none ∧ firstSaid rs = .error fault := by
  cases r with
  | error e => simp [firstSaid]
  | ok o? =>
    cases o? with
    | none => simp [firstSaid]
    | some o => simp [firstSaid]

theorem valueOn_search (answers : Answers) (paths : List String) :
    (search paths).valueOn answers = some (firstSaid (paths.map (consult answers))) := by
  induction paths with
  | nil => rfl
  | cons path paths ih =>
    rw [search, Job.valueOn_bind, Job.valueOn_holds, List.map_cons, consult]
    dsimp only [Option.bind_some]
    cases answers.holds path with
    | error fault => rfl
    | ok there =>
      cases there with
      | false => exact ih
      | true =>
        dsimp only
        rw [Job.valueOn_bind, Job.valueOn_load]
        dsimp only [Option.bind_some]
        cases ofReading path (answers.read path) with
        | error e => rfl
        | ok o? =>
          cases o? with
          | none => exact ih
          | some o => rfl

/-- The configuration in a file of its own: the table for it, or else all of the file. -/
def ownConfiguration (t : Toml.Table) : Toml.Table :=
  match t.get? "bnfc" with
  | some (.table u) => u
  | _ => t

theorem baseName_candidate {name : String} (h : name ∈ [ownFile, projectFile])
    (directory : String) : Path.baseName (Path.join directory name) = name := by
  have hbase : Path.isAbsolute name = false ∧ Path.components name ≠ [] ∧
      Path.baseName name = name := by
    rcases List.mem_pair.1 h with rfl | rfl <;> decide
  rw [Path.baseName_join hbase.1 hbase.2.1, hbase.2.2]

theorem section?_own (directory : String) (t : Toml.Table) :
    Configuration.section? (Path.join directory ownFile) t =
      (some (ownConfiguration t)).filter fun u => !u.isEmpty := by
  have hname : Path.baseName (Path.join directory ownFile) ≠ projectFile := by
    rw [baseName_candidate (by decide)]
    decide
  rw [section?, if_neg hname, ownConfiguration]
  dsimp only
  cases t.get? "bnfc" with
  | none => rfl
  | some v => cases v <;> rfl

theorem section?_own_eq_none_iff {directory : String} {t : Toml.Table} :
    Configuration.section? (Path.join directory ownFile) t = none ↔ ownConfiguration t = [] := by
  rw [section?_own]
  simp

/-- A search goes on behind a file that is passed over or has an empty configuration. -/
def SaysNothing (answers : Answers) (path : String) : Prop :=
  IsPassedOver answers path ∨ ∃ t, HoldsTable t answers path ∧ ownConfiguration t = []

theorem firstSaid_candidates_eq_error_iff {answers : Answers} {directory : String}
    {fault : ConfigurationFault} :
    firstSaid ((candidates directory).map (consult answers)) = .error fault ↔
      Obstructs answers (Path.join directory ownFile) fault ∨
        SaysNothing answers (Path.join directory ownFile) ∧
          Obstructs answers (Path.join directory projectFile) fault := by
  rw [candidates, List.map_cons, List.map_singleton, List.map_cons, List.map_singleton,
    firstSaid_cons_eq_error_iff, firstSaid_cons_eq_error_iff, consult_eq_error_iff,
    consult_eq_none_iff, consult_eq_error_iff]
  simp [firstSaid, SaysNothing, section?_own_eq_none_iff]

end Configuration

open GrammarBindings.Configuration

variable {env : Environment} {now : CivilMinute} {tree : FileTree} {answers : Answers}
  {directory : String} {fault : ConfigurationFault}

theorem Settings.valueOn_load (env : Environment) (h : answers.workingDirectory = .ok directory) :
    (Settings.load env none).valueOn answers =
      some ((firstSaid ((candidates directory).map (consult answers))).map fun o =>
        Settings.ofLayers {} [o, Overrides.ofEnvironment env Overrides.ownBeginning]) := by
  rw [Settings.load, Job.valueOn_bind, find, Job.valueOn_bind, Job.valueOn_workingDirectory, h]
  dsimp only [Option.bind_some]
  rw [valueOn_search]
  rfl

theorem Settings.runOn_load (env : Environment) (tree : FileTree) :
    (Settings.load env none).runOn tree =
      ((firstSaid ((candidates (FileTree.absolutePath tree.workingDirectory)).map
        (consult tree.answers))).map fun o =>
          Settings.ofLayers {} [o, Overrides.ofEnvironment env Overrides.ownBeginning], tree) :=
  Job.runOn_of_valueOn (Settings.valueOn_load env rfl)

theorem runOn_program_of_load (h : ((Settings.load env none).runOn tree).1 = .error fault)
    (args : List String) :
    (program args env now).runOn tree = (⟨"", "", .error (.configuration fault)⟩, tree) := by
  have htree : ((Settings.load env none).runOn tree).2 = tree := by rw [Settings.runOn_load]
  rw [program, Job.runOn_bind, h, htree]
  rfl

/-- Settings are loaded unless the first file of the search that says anything breaks it off. -/
theorem valueOn_load_eq_error_iff (env : Environment)
    (h : answers.workingDirectory = .ok directory) :
    (Settings.load env none).valueOn answers = some (.error fault) ↔
      Obstructs answers (Path.join directory ownFile) fault ∨
        SaysNothing answers (Path.join directory ownFile) ∧
          Obstructs answers (Path.join directory projectFile) fault := by
  rw [Settings.valueOn_load env h, Option.some.injEq, map_eq_error_iff,
    firstSaid_candidates_eq_error_iff]

/-- The path of a file in the working directory. -/
def FileTree.besides (tree : FileTree) (name : String) : String :=
  Path.join (absolutePath tree.workingDirectory) name

/-- The second tree is the first, except that files of the search may be missing that the search
would have passed over. -/
structure LacksPassedOver (tree tree' : FileTree) : Prop where
  workingDirectory : tree'.workingDirectory = tree.workingDirectory
  files : ∀ name ∈ [ownFile, projectFile],
    (tree'.holds (tree.besides name) = tree.holds (tree.besides name) ∧
        tree'.read (tree.besides name) = tree.read (tree.besides name)) ∨
      IsPassedOver tree.answers (tree.besides name) ∧ tree'.holds (tree.besides name) = .ok false

theorem LacksPassedOver.consult_eq {tree' : FileTree} (h : LacksPassedOver tree tree')
    {name : String} (hname : name ∈ [ownFile, projectFile]) :
    consult tree'.answers (tree.besides name) = consult tree.answers (tree.besides name) := by
  rcases h.files name hname with ⟨hholds, hread⟩ | ⟨hpassed, hmissing⟩
  · simp only [consult, FileTree.answers, hholds, hread]
  · have hskipped : IsPassedOver tree'.answers (tree.besides name) :=
      .absent (by simpa only [FileTree.answers] using hmissing)
    rw [hpassed.consult, hskipped.consult]

/-- Settings are loaded unless the first file of the search that says anything breaks it off, be it
for its encoding, for a numeral of more than 4300 digits or because it cannot be told whether the
file is there, and then no program does anything at all, whatever its arguments are. Files that
cannot be read and files that are no TOML might as well be missing. -/
theorem load_obstructed_iff (env : Environment) (now : CivilMinute) (tree : FileTree) :
    (∀ fault, ((Settings.load env none).runOn tree).1 = .error fault ↔
      Obstructs tree.answers (tree.besides ownFile) fault ∨
        SaysNothing tree.answers (tree.besides ownFile) ∧
          Obstructs tree.answers (tree.besides projectFile) fault) ∧
    (∀ fault, ((Settings.load env none).runOn tree).1 = .error fault → ∀ args,
      (program args env now).runOn tree = (⟨"", "", .error (.configuration fault)⟩, tree)) ∧
    ((Settings.load env none).runOn tree).2 = tree ∧
    ∀ tree', LacksPassedOver tree tree' →
      ((Settings.load env none).runOn tree').1 = ((Settings.load env none).runOn tree).1 := by
  refine ⟨fun fault => ?_, fun fault h args => runOn_program_of_load h args, ?_, fun tree' h => ?_⟩
  · rw [Settings.runOn_load, map_eq_error_iff, firstSaid_candidates_eq_error_iff]
    rfl
  · rw [Settings.runOn_load]
  · have hsaid : ∀ path ∈ candidates (FileTree.absolutePath tree.workingDirectory),
        consult tree'.answers path = consult tree.answers path := by
      intro path hpath
      obtain ⟨name, hname, rfl⟩ := List.mem_map.1 hpath
      exact h.consult_eq hname
    rw [Settings.runOn_load, Settings.runOn_load, h.workingDirectory,
      List.map_congr_left hsaid]

/-- Behind a file that might as well be missing, a single byte breaks all programs off. -/
theorem load_obstructed_iff_project :
    let project : Location × Node := (["pyproject.toml"], .file ⟨#[0xff]⟩)
    let tree : FileTree := ⟨[(["bnfc.toml"], .file "=".toUTF8), project], []⟩
    let tree' : FileTree := ⟨[project], []⟩
    LacksPassedOver tree tree' ∧
      ((Settings.load (fun _ => none) none).runOn tree').1 = .error .encoding ∧
      ∀ args, (program args (fun _ => none) ⟨2024, 1, 1, 0, 0⟩).runOn tree =
        (⟨"", "", .error (.configuration .encoding)⟩, tree) := by
  intro project tree tree'
  have hdecode : Text.decode "=".toUTF8 = .ok "=" := by decide +kernel
  have hown : Reads tree.answers (tree.besides ownFile) (.ok "=".toUTF8) :=
    ⟨by decide +kernel, by decide +kernel⟩
  have hpassed : IsPassedOver tree.answers (tree.besides ownFile) := .malformed hown hdecode rfl
  have hproject : Reads tree.answers (tree.besides projectFile) (.ok ⟨#[0xff]⟩) :=
    ⟨by decide +kernel, by decide +kernel⟩
  have hinvalid : Text.decode ⟨#[0xff]⟩ = .error 0 := by decide +kernel
  have hlacks : LacksPassedOver tree tree' := by
    refine ⟨rfl, fun name hname => ?_⟩
    rcases List.mem_pair.1 hname with rfl | rfl
    · exact .inr ⟨hpassed, by decide +kernel⟩
    · exact .inl ⟨by decide +kernel, by decide +kernel⟩
  obtain ⟨hiff, hprogram, -, hsame⟩ :=
    load_obstructed_iff (fun _ => none) ⟨2024, 1, 1, 0, 0⟩ tree
  have hload := (hiff .encoding).2 (.inr ⟨.inl hpassed, .encoding hproject hinvalid⟩)
  exact ⟨hlacks, (hsame tree' hlacks).trans hload, hprogram .encoding hload⟩

/-- A single byte keeps the settings from being loaded that are loaded without the file. -/
theorem load_invalid_byte :
    ((Settings.load (fun _ => none) none).runOn ⟨[], []⟩).1 = .ok ({}, []) ∧
      ¬ ∃ loaded, ((Settings.load (fun _ => none) none).runOn
        ⟨[(["bnfc.toml"], .file ⟨#[0xff]⟩)], []⟩).1 = .ok loaded := by
  constructor
  · rw [Settings.runOn_load]
    rfl
  · rintro ⟨loaded, h⟩
    let tree : FileTree := ⟨[(["bnfc.toml"], .file ⟨#[0xff]⟩)], []⟩
    have hown : Reads tree.answers (tree.besides ownFile) (.ok ⟨#[0xff]⟩) :=
      ⟨by decide +kernel, by decide +kernel⟩
    have hinvalid : Text.decode ⟨#[0xff]⟩ = .error 0 := by decide +kernel
    have hfault : firstSaid ((candidates (FileTree.absolutePath [])).map (consult tree.answers)) =
        .error .encoding := firstSaid_candidates_eq_error_iff.2 (.inl (.encoding hown hinvalid))
    rw [Settings.runOn_load] at h
    cases (map_eq_error_iff.2 hfault).symm.trans h

end GrammarBindings

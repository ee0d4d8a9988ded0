import GrammarBindings.Proofs.ConfigurationSearch

/-!
# The precedence of settings

Each setting has the value of its environment variable if that fits, else that of the configuration
if this is a table with a fitting value, and else its default, whatever becomes of the others. The
layers of configuration override each other one after the other, so the last one with a fitting
value has the last word.
-/

namespace GrammarBindings

/-- The first of some values that fits, in the form in which it is taken, or else a default. -/
inductive FirstFitting {α : Type} (Fits : String → α → Prop) (default : α) :
    List (Option String) → α → Prop
  | default : FirstFitting Fits default [] default
  | here {v : String} {a : α} {vs : List (Option String)} (h : Fits v a) :
      FirstFitting Fits default (some v :: vs) a
  | later {v? : Option String} {a : α} {vs : List (Option String)}
      (hnone : ∀ v, v? = some v → ∀ b, ¬ Fits v b) (h : FirstFitting Fits default vs a) :
      FirstFitting Fits default (v? :: vs) a

namespace FirstFitting

variable {α : Type} {Fits : String → α → Prop} {a b c : α} {v? : Option String}
  {vs ws : List (Option String)}

/-- Values in front come before a default that others have come to. -/
theorem append (h : FirstFitting Fits b vs c) (hb : FirstFitting Fits a ws b) :
    FirstFitting Fits a (vs ++ ws) c := by
  induction h with
  | default => exact hb
  | here h => exact .here h
  | later hnone _ ih => exact .later hnone ih

/-- A value that is read by a function counts if the function takes it. -/
theorem getD_bind {read : String → Option α} (hread : ∀ v a, read v = some a ↔ Fits v a)
    (v? : Option String) (a : α) : FirstFitting Fits a [v?] ((v?.bind read).getD a) := by
  cases v? with
  | none => exact .later nofun .default
  | some v =>
    rw [Option.bind_some]
    cases hv : read v with
    | none =>
      refine .later ?_ .default
      rintro _ ⟨⟩ b hb
      cases hv.symm.trans ((hread v b).2 hb)
    | some b => exact .here ((hread v b).1 hv)

/-- An empty value that does not fit counts as none. -/
theorem of_nonempty? (h : FirstFitting Fits a (v?.bind nonempty? :: vs) b)
    (hempty : ∀ b, ¬ Fits "" b) : FirstFitting Fits a (v? :: vs) b := by
  cases v? with
  | none => exact h
  | some v =>
    rw [Option.bind_some, nonempty?] at h
    split at h
    · next hv =>
      obtain rfl : v = "" := by simpa using hv
      cases h with
      | later _ h =>
        refine .later ?_ h
        rintro _ ⟨⟩
        exact hempty
    · exact h

/-- A property of the default and of all values that fit. -/
theorem induct {P : α → Prop} (h : FirstFitting Fits a vs b) (hdefault : P a)
    (hfits : ∀ v c, Fits v c → P c) : P b := by
  induction h with
  | default => exact hdefault
  | here h => exact hfits _ _ h
  | later _ _ ih => exact ih

end FirstFitting

namespace Settings

def FitsDirectory (v directory : String) : Prop := v ≠ "" ∧ directory = v

def FitsLevel (v level : String) : Prop :=
  level = Text.inCapitals (String.ofList (Text.trimBlanks v.toList)) ∧
    level ∈ ["DEBUG", "INFO", "WARNING", "ERROR", "CRITICAL"]

def FitsTime (v : String) (time? : Option String) : Prop := v ≠ "" ∧ time? = some v

theorem nonempty?_eq_some_iff {v a : String} : nonempty? v = some a ↔ FitsDirectory v a := by
  rw [nonempty?, FitsDirectory]
  split
  · next hv => simp [show v = "" by simpa using hv]
  · next hv => simp [show v ≠ "" by simpa using hv, eq_comm]

theorem level?_eq_some_iff {v a : String} : level? v = some a ↔ FitsLevel v a := by
  rw [level?, FitsLevel, levels]
  constructor
  · intro h
    obtain ⟨hlevel, heq⟩ := Option.ite_none_right_eq_some.1 h
    obtain rfl := Option.some.inj heq
    exact ⟨rfl, hlevel⟩
  · rintro ⟨rfl, hlevel⟩
    exact if_pos hlevel

section Layers

variable {α : Type} {Fits : String → α → Prop} {field : Settings → α}
  {said : Overrides → Option String}

/-- The last layer that gives a setting a fitting value has the last word on it. -/
theorem firstFitting_ofLayers
    (hstep : ∀ s o, FirstFitting Fits (field s) [said o] (field (override s o)))
    (s : Settings) (os : List Overrides) :
    FirstFitting Fits (field s) (os.reverse.map said) (field (ofLayers s os).1) := by
  rw [ofLayers]
  induction os generalizing s with
  | nil => exact .default
  | cons o os ih =>
    rw [List.foldl_cons, List.reverse_cons, List.map_append]
    exact (ih (override s o)).append (hstep s o)

theorem firstFitting_outDirectory (s : Settings) (o : Overrides) :
    FirstFitting FitsDirectory s.outDirectory [o.outDirectory?] (override s o).outDirectory :=
  .getD_bind (fun _ _ => nonempty?_eq_some_iff) _ _

theorem firstFitting_logLevel (s : Settings) (o : Overrides) :
    FirstFitting FitsLevel s.logLevel [o.logLevel?] (override s o).logLevel :=
  .getD_bind (fun _ _ => level?_eq_some_iff) _ _

theorem firstFitting_timestamp? (s : Settings) (o : Overrides) :
    FirstFitting FitsTime s.timestamp? [o.timestamp?] (override s o).timestamp? := by
  have hread (v : String) (time? : Option String) :
      (nonempty? v).map some = some time? ↔ FitsTime v time? := by
    rw [Option.map_eq_some_iff]
    constructor
    · rintro ⟨a, ha, rfl⟩
      obtain ⟨hv, rfl⟩ := nonempty?_eq_some_iff.1 ha
      exact ⟨hv, rfl⟩
    · rintro ⟨hv, rfl⟩
      exact ⟨v, nonempty?_eq_some_iff.2 ⟨hv, rfl⟩, rfl⟩
  have hor : (override s o).timestamp? =
      (o.timestamp?.bind fun v => (nonempty? v).map some).getD s.timestamp? := by
    cases hv : o.timestamp? with
    | none => simp [override, hv]
    | some v => cases hne : nonempty? v <;> simp [override, hv, hne]
  rw [hor]
  exact .getD_bind hread _ _

end Layers

end Settings

namespace Configuration

/-- The table of a file, or none if the file is passed over. -/
inductive Yields (answers : Answers) (path : String) : Option Toml.Table → Prop
  | none (h : IsPassedOver answers path) : Yields answers path none
  | some {t : Toml.Table} (h : HoldsTable t answers path) : Yields answers path (some t)

/-- The configuration in a project file, which need not be a table. -/
def projectConfiguration? (t : Toml.Table) : Option Toml.Value :=
  match t.get? "tool" with
  | some (.table u) => Toml.Table.get? u "bnfc"
  | _ => none

/-- A single value has no settings, whether it is zero or false or not. -/
def isEmpty : Toml.Value → Bool
  | .text s => s.isEmpty
  | .scalar => false
  | .array xs => xs.isEmpty
  | .table t => t.isEmpty

/-- The first configuration that is not empty. -/
def first? (own? project? : Option Toml.Table) : Option Toml.Value :=
  ((own?.map fun t => .table (ownConfiguration t)).filter fun v => !isEmpty v).or
    ((project?.bind projectConfiguration?).filter fun v => !isEmpty v)

/-- What a configuration says on a setting, if it is a table and says a text. -/
def setting? (cfg? : Option Toml.Value) (key : String) : Option String :=
  ((cfg?.bind Toml.Value.table?).bind fun t => t.get? key).bind Toml.Value.text?

/-- What a configuration says on all settings. -/
def overrides (cfg? : Option Toml.Value) : Overrides :=
  ⟨setting? cfg? "out_dir", setting? cfg? "log_level", setting? cfg? "timestamp"⟩

theorem section?_project (directory : String) (t : Toml.Table) :
    Configuration.section? (Path.join directory projectFile) t =
      ((projectConfiguration? t).bind Toml.Value.table?).filter fun u => !u.isEmpty := by
  rw [section?, if_pos (baseName_candidate (by decide) directory), projectConfiguration?]
  cases t.get? "tool" with
  | none => rfl
  | some v => cases v <;> rfl

variable {answers : Answers} {directory path : String} {own? project? t? : Option Toml.Table}

theorem Yields.consult (h : Yields answers path t?) :
    consult answers path = .ok (t?.bind fun t => (section? path t).map Overrides.ofTable) := by
  cases h with
  | none h => exact h.consult
  | some h => exact h.consult

theorem said_own (directory : String) (own? : Option Toml.Table) :
    (own?.bind fun t => (section? (Path.join directory ownFile) t).map Overrides.ofTable) =
      ((own?.map fun t => .table (ownConfiguration t)).filter fun v => !isEmpty v).map
        fun v => overrides (some v) := by
  cases own? with
  | none => rfl
  | some t =>
    rw [Option.bind_some, Option.map_some, section?_own]
    cases ownConfiguration t with
    | nil => rfl
    | cons e u => rfl

theorem said_project (directory : String) (project? : Option Toml.Table) :
    (project?.bind fun t =>
        (section? (Path.join directory projectFile) t).map Overrides.ofTable).getD {} =
      overrides ((project?.bind projectConfiguration?).filter fun v => !isEmpty v) := by
  cases project? with
  | none => rfl
  | some t =>
    rw [Option.bind_some, Option.bind_some, section?_project]
    cases projectConfiguration? t with
    | none => rfl
    | some v =>
      cases v with
      | text s => cases hs : s.isEmpty <;> simp [Option.filter, isEmpty, hs] <;> rfl
      | scalar => rfl
      | array xs => cases xs <;> rfl
      | table u => cases u <;> rfl

/-- The second file is asked only if the first has no configuration that is not empty. -/
theorem firstSaid_of_yields (hown : Yields answers (Path.join directory ownFile) own?)
    (hproject : (∀ t, own? = some t → ownConfiguration t = []) →
      Yields answers (Path.join directory projectFile) project?) :
    firstSaid ((candidates directory).map (consult answers)) =
      .ok (overrides (first? own? project?)) := by
  rw [candidates, List.map_cons, List.map_singleton, List.map_cons, List.map_singleton,
    hown.consult, said_own, first?]
  by_cases hempty : ∀ t, own? = some t → ownConfiguration t = []
  · have hnone :
        (own?.map fun t => Toml.Value.table (ownConfiguration t)).filter (fun v => !isEmpty v) =
          none := by
      cases own? with
      | none => rfl
      | some t => simp [hempty t rfl, isEmpty, Option.filter]
    rw [hnone, (hproject hempty).consult, Option.none_or, ← said_project directory]
    cases project?.bind fun t =>
        (section? (Path.join directory projectFile) t).map Overrides.ofTable with
    | none => rfl
    | some o => rfl
  · obtain ⟨t, ht, hconfiguration⟩ : ∃ t, own? = some t ∧ ownConfiguration t ≠ [] := by
      simpa using hempty
    subst ht
    cases hcons : ownConfiguration t with
    | nil => exact absurd hcons hconfiguration
    | cons e u => simp [hcons, isEmpty, Option.filter, firstSaid]

end Configuration

open GrammarBindings.Configuration Settings

namespace Settings

/-- Each setting is the first of its values that fits, of which the one in the environment stands
before the one in the configuration. -/
structure Follows (env : Environment) (cfg? : Option Toml.Value) (s : Settings) : Prop where
  outDirectory : FirstFitting FitsDirectory "." [env "BNFC_OUT_DIR", setting? cfg? "out_dir"]
    s.outDirectory
  logLevel : FirstFitting FitsLevel "INFO" [env "BNFC_LOG_LEVEL", setting? cfg? "log_level"]
    s.logLevel
  timestamp? : FirstFitting FitsTime none [env "BNFC_TIMESTAMP", setting? cfg? "timestamp"]
    s.timestamp?

theorem follows_ofLayers (env : Environment) (cfg? : Option Toml.Value) :
    (ofLayers {} [overrides cfg?, Overrides.ofEnvironment env Overrides.ownBeginning]).1.Follows
      env cfg? := by
  let layers := [overrides cfg?, Overrides.ofEnvironment env Overrides.ownBeginning]
  have hout := (firstFitting_ofLayers firstFitting_outDirectory {} layers).of_nonempty?
    fun b h => h.1 rfl
  have hlevel := (firstFitting_ofLayers firstFitting_logLevel {} layers).of_nonempty? (by
    rintro b ⟨rfl, h⟩
    revert h
    decide)
  have htime := (firstFitting_ofLayers firstFitting_timestamp? {} layers).of_nonempty?
    fun b h => h.1 rfl
  exact ⟨hout, hlevel, htime⟩

variable {env : Environment} {cfg? : Option Toml.Value} {s : Settings}

theorem Follows.logLevel_mem (h : s.Follows env cfg?) :
    s.logLevel ∈ ["DEBUG", "INFO", "WARNING", "ERROR", "CRITICAL"] :=
  h.logLevel.induct (by decide) fun _ _ hfits => hfits.2

theorem Follows.outDirectory_ne (h : s.Follows env cfg?) : s.outDirectory ≠ "" :=
  h.outDirectory.induct (by decide) fun _ _ hfits => hfits.2 ▸ hfits.1

end Settings

/-- Each setting has the value of its environment variable if that fits, else the one of the first
configuration that is not empty, if that is a table with a fitting value, else its default. What
becomes of one setting does not depend on the values of the others, the level is always one of the
five, and the directory is never empty. Whatever keeps a file from being read, it is passed over once
it is known to be there; where even that is not to be learnt, no settings are loaded at all. -/
theorem load_firstFitting (env : Environment) {answers : Answers} {directory : String}
    (hdirectory : answers.workingDirectory = .ok directory) :
    (∀ own? project?, Yields answers (Path.join directory "bnfc.toml") own? →
      ((∀ t, own? = some t → ownConfiguration t = []) →
        Yields answers (Path.join directory "pyproject.toml") project?) →
      ∃ s notes, (Settings.load env none).valueOn answers = some (.ok (s, notes)) ∧
        (∀ tree : FileTree, tree.answers = answers →
          (Settings.load env none).runOn tree = (.ok (s, notes), tree)) ∧
        s.Follows env (first? own? project?) ∧
        s.logLevel ∈ ["DEBUG", "INFO", "WARNING", "ERROR", "CRITICAL"] ∧ s.outDirectory ≠ "") ∧
    ∀ fault, (answers.holds (Path.join directory "bnfc.toml") = .error fault ∨
        SaysNothing answers (Path.join directory "bnfc.toml") ∧
          answers.holds (Path.join directory "pyproject.toml") = .error fault) →
      (Settings.load env none).valueOn answers = some (.error (.file fault)) := by
  constructor
  · intro own? project? hown hproject
    let cfg? := first? own? project?
    let layers := [overrides cfg?, Overrides.ofEnvironment env Overrides.ownBeginning]
    have hload : (Settings.load env none).valueOn answers = some (.ok (ofLayers {} layers)) := by
      rw [Settings.valueOn_load env hdirectory, firstSaid_of_yields hown hproject]
      rfl
    have hfollows := follows_ofLayers env cfg?
    exact ⟨_, _, hload, fun tree htree => Job.runOn_of_valueOn (htree ▸ hload), hfollows,
      hfollows.logLevel_mem, hfollows.outDirectory_ne⟩
  · intro fault huntold
    refine (valueOn_load_eq_error_iff env hdirectory).2 ?_
    exact huntold.imp .untold (And.imp_right .untold)

/-- A directory in a file and a level in the environment, which is not affected by the level in the
file that is none. -/
theorem load_firstFitting_mixed :
    let tree : FileTree :=
      ⟨[(["bnfc.toml"], .file "out_dir=\"gen\"\nlog_level=\"loud\"".toUTF8)], []⟩
    let env : Environment := fun name => if name = "BNFC_LOG_LEVEL" then some " debug" else none
    ∃ s notes, (Settings.load env none).runOn tree = (.ok (s, notes), tree) ∧
      s.outDirectory = "gen" ∧ s.logLevel = "DEBUG" := by
  intro tree env
  let own := (Toml.read "out_dir=\"gen\"\nlog_level=\"loud\"").toOption.getD []
  have hdecode : Text.decode "out_dir=\"gen\"\nlog_level=\"loud\"".toUTF8 =
      .ok "out_dir=\"gen\"\nlog_level=\"loud\"" := by decide +kernel
  have hread : Toml.read "out_dir=\"gen\"\nlog_level=\"loud\"" = .ok own :=
    eq_ok_getD (by decide +kernel) []
  have hreads : Reads tree.answers "/bnfc.toml"
      (.ok "out_dir=\"gen\"\nlog_level=\"loud\"".toUTF8) :=
    ⟨by decide +kernel, by decide +kernel⟩
  have hown : Yields tree.answers (Path.join "/" "bnfc.toml") (some own) :=
    .some (.mk hreads hdecode hread)
  have hproject : Yields tree.answers (Path.join "/" "pyproject.toml") none :=
    .none (.absent (by decide +kernel))
  have hlocated : tree.answers.workingDirectory = .ok "/" := rfl
  obtain ⟨s, notes, -, hload, hfollows, -⟩ :=
    (load_firstFitting env hlocated).1 _ _ hown fun _ => hproject
  have hsaid : setting? (first? (some own) none) "out_dir" = some "gen" := by decide +kernel
  refine ⟨s, notes, hload tree rfl, ?_, ?_⟩
  · have hdirectory := hfollows.outDirectory
    rw [hsaid] at hdirectory
    cases hdirectory with
    | later _ h =>
      cases h with
      | here h => exact h.2
      | later hnone _ => exact absurd ⟨by decide, rfl⟩ (hnone "gen" rfl "gen")
  · cases hfollows.logLevel with
    | here h => exact h.1.trans (by decide)
    | later hnone _ => exact absurd ⟨by decide, by decide⟩ (hnone " debug" rfl "DEBUG")

/-- In a directory that may not be searched, neither file can be read, and no settings are loaded:
the files are not passed over if it is not to be learnt whether they are there. -/
theorem load_unsearchable :
    let refused : FileFault := .system "Permission denied"
    let answers : Answers := ⟨.ok "/work", fun _ => .error refused, fun _ => .error refused⟩
    (∀ path, answers.read path = .error refused) ∧
      (Settings.load (fun _ => none) none).valueOn answers = some (.error (.file refused)) := by
  intro refused answers
  have huntold : Obstructs answers (Path.join "/work" ownFile) (.file refused) := .untold rfl
  exact ⟨fun _ => rfl, (valueOn_load_eq_error_iff _ rfl).2 (.inl huntold)⟩

end GrammarBindings

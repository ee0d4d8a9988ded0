import GrammarBindings.Proofs.PackageNames

/-!
# The package of a line of the single-dash style

The package stands behind the first package flag, in front of the grammar. But if this flag stands
directly in front of the grammar, the grammar is taken for the package too: the line is read as the
one without the flag, with the path as the package if it can be one. A package is never a flag.
-/

namespace GrammarBindings
namespace SingleDash

/-- What has its place behind the first package flag of a line, by what stands in front of the
grammar. -/
inductive PackagePlace (front : List String) (path : String) : Option String → Prop where
  | missing (absent : "-p" ∉ front) : PackagePlace front path none
  | inFront (before behind : List String) (package : String) (absent : "-p" ∉ before)
      (line : front = before ++ "-p" :: package :: behind) : PackagePlace front path (some package)
  | grammar (before : List String) (absent : "-p" ∉ before) (line : front = before ++ ["-p"]) :
      PackagePlace front path (some path)

variable {args front before rest : List String} {path : String}

theorem packageText?_append (h : "-p" ∉ before) :
    packageText? (before ++ rest) = packageText? rest := by
  induction before with
  | nil => rfl
  | cons w before ih =>
    obtain ⟨hw, hbefore⟩ := List.ne_and_not_mem_of_not_mem_cons h
    rw [List.cons_append, packageText?_cons_of_ne (Ne.symm hw), ih hbefore]

/-- The place of the text that is looked for. -/
theorem packagePlace_packageText? (front : List String) (h : path ≠ "-p") :
    PackagePlace front path (packageText? (front ++ [path])) := by
  by_cases hflag : "-p" ∈ front
  · obtain ⟨before, behind, rfl, habsent⟩ := List.eq_append_cons_of_mem hflag
    rw [List.append_assoc, packageText?_append habsent]
    cases behind with
    | nil => exact .grammar before habsent rfl
    | cons package behind => exact .inFront before behind package habsent rfl
  · rw [packageText?_append hflag, packageText?_singleton h]
    exact .missing hflag

theorem eq_of_grammarPath? {path' : String} (h : grammarPath? (front ++ [path]) = some path') :
    path = path' ∧ path ≠ "-p" := by
  obtain ⟨hlast, -, hhead⟩ := grammarPath?_eq_some_iff.1 h
  rw [List.getLast?_concat] at hlast
  obtain rfl := Option.some.inj hlast
  exact ⟨rfl, ne_flag_of_head? hhead⟩

theorem map_text_of_mapM {s? : Option String} {p? : Option Package}
    (h : s?.mapM checkPackage = .ok p?) : s? = p?.map Package.text := by
  cases s? with
  | none =>
    obtain rfl := pure_eq_ok_iff.1 h
    rfl
  | some s =>
    obtain ⟨p, hp, rfl⟩ := map_eq_ok_iff.1 h
    rw [Option.map_some, checkPackage_eq_ok_iff.1 hp]

theorem mem_append_flag_iff {w : String} (h : w ≠ "-p") :
    w ∈ front ++ ["-p", path] ↔ w ∈ front ++ [path] := by
  simp [h]

/-- No other option looks at a package flag, so a line with one in front of the grammar differs from
the line without it in the package alone. -/
theorem readWords_append_flag (h : "-p" ∉ front) :
    readWords (front ++ ["-p", path]) = (readWords (front ++ [path])).bind fun r =>
      (checkPackage path).map fun p => (r.1.withPackage p, r.2) := by
  have hlast : grammarPath? (front ++ ["-p", path]) = grammarPath? (front ++ [path]) := by
    simp [grammarPath?]
  have hselected : selectedTargets (front ++ ["-p", path]) = selectedTargets (front ++ [path]) := by
    simp (disch := decide) only [selectedTargets, mem_append_flag_iff]
  have hlexer : lexer (front ++ ["-p", path]) = lexer (front ++ [path]) := by
    have hnone : lexerOfFlag? "-p" = none := by decide
    simp [lexer, List.filterMap_append, List.filterMap_cons, hnone]
  have hxml : xml (front ++ ["-p", path]) = xml (front ++ [path]) := by
    simp (disch := decide) only [xml, mem_append_flag_iff]
  rw [readWords, readWords, hlast]
  cases hpath : grammarPath? (front ++ [path]) with
  | none => rfl
  | some path' =>
    have hpackage : packageText? (front ++ ["-p", path]) = some path := by
      rw [packageText?_append h]
      rfl
    have hnone : packageText? (front ++ [path]) = none := by
      obtain ⟨rfl, hdash⟩ := eq_of_grammarPath? hpath
      rw [packageText?_append h, packageText?_singleton hdash]
    have hmapM : (some path).mapM checkPackage = (checkPackage path).map some := rfl
    simp (disch := decide) only [hselected, hlexer, hxml, hpackage, hnone, hmapM,
      mem_append_flag_iff]
    split
    · cases Path.isGrammarFile path' with
      | false => rfl
      | true =>
        cases checkPackage path with
        | error e => rfl
        | ok p => rfl
    · rfl

/-- For every line of words: if the line is accepted, its last word is the grammar, and the package
is none of the flags and has its place behind the first package flag; and if this flag stands
directly in front of the grammar, the line is what it is without the flag, with the path checked as
the package. -/
theorem read_package_place (args : List String) :
    (∀ o path, read args = .ok (o, path) →
      ∃ front, args.map Text.withoutBlanks = front ++ [path] ∧ path.toList.head? ≠ some '-' ∧
        PackagePlace front path (o.package.map Package.text) ∧
        ∀ p, o.package = some p →
          p.text.toList.head? ≠ some '-' ∧ ∀ s : Setting, p.text ∉ s.flags) ∧
    ∀ front path, args.map Text.withoutBlanks = front ++ ["-p", path] → "-p" ∉ front →
      (IsDotted path → ∃ p : Package, p.text = path ∧ read args =
        (readWords (front ++ [path])).map fun r => (r.1.withPackage p, r.2)) ∧
      (¬ IsDotted path → read args = (readWords (front ++ [path])).bind fun _ =>
        .error (.field "in_package" (.package path))) := by
  constructor
  · intro o path h
    obtain ⟨hpath, -, hpackage⟩ := readWords_eq_ok h
    obtain ⟨hlast, -, hhead⟩ := grammarPath?_eq_some_iff.1 hpath
    obtain ⟨front, hfront⟩ := List.getLast?_eq_some_iff.1 hlast
    refine ⟨front, hfront, hhead, ?_, fun p _ => ⟨p.head?_text, fun s hs => ?_⟩⟩
    · rw [← map_text_of_mapM hpackage, hfront]
      exact packagePlace_packageText? front (ne_flag_of_head? hhead)
    · exact p.head?_text (Setting.head?_of_mem_flags hs)
  · intro front path hline hfront
    have hmem : path ∈ args.map Text.withoutBlanks := by
      rw [hline]
      simp
    obtain ⟨w, -, hw⟩ := List.mem_map.1 hmem
    have hchecked := isPackage_iff_isDotted (hw ▸ isBlankFree_withoutBlanks w)
    rw [read, hline, readWords_append_flag hfront]
    constructor
    · intro hdotted
      have hpackage := hchecked.2 hdotted
      refine ⟨⟨path, hpackage⟩, rfl, ?_⟩
      rw [(checkPackage_eq_ok_iff (p := ⟨path, hpackage⟩)).2 rfl]
      cases readWords (front ++ [path]) with
      | error e => rfl
      | ok r => rfl
    · intro hdotted
      rw [checkPackage_eq_error (mt hchecked.1 hdotted)]
      rfl

theorem read_package_place_spaced :
    let args := ["-d", "-p", "My.Pkg ", "-c", "Calc.cf"]
    let o : Options :=
      { target := .c, inDirectory := true, package := some ⟨"My.Pkg", by decide⟩,
        grammarName := "Calc" }
    read args = .ok (o, "Calc.cf") ∧
      (∃ front, args.map Text.withoutBlanks = front ++ ["Calc.cf"] ∧
        PackagePlace front "Calc.cf" (some "My.Pkg")) ∧
      read ["-m", "-p", "a/Calc.cf"] = .error (.field "in_package" (.package "a/Calc.cf")) := by
  intro args o
  have hread : read args = .ok (o, "Calc.cf") := by decide +kernel
  obtain ⟨front, hfront, -, hplace, -⟩ := (read_package_place args).1 o "Calc.cf" hread
  have hdotted : ¬ IsDotted "a/Calc.cf" := mt all_splitOn_iff.2 (by decide)
  have hrefused := ((read_package_place ["-m", "-p", "a/Calc.cf"]).2 ["-m"] "a/Calc.cf"
    (by decide) (by decide)).2 hdotted
  exact ⟨hread, ⟨front, hfront, hplace⟩, hrefused.trans (by decide +kernel)⟩

/-- The grammar is its own package. -/
theorem read_flag_before_grammar :
    read ["-p", "Calc.cf"] =
      .ok ({ package := some ⟨"Calc.cf", by decide⟩, grammarName := "Calc" }, "Calc.cf") := by
  decide +kernel

end SingleDash
end GrammarBindings

import GrammarBindings.Options.OptionLine
import GrammarBindings.Options.SingleDash
import GrammarBindings.Proofs.Outcomes
import GrammarBindings.Proofs.Pieces

/-!
# Accepted lines

A line that is accepted, in either style, names a grammar file, and the grammar has its name from
this file. Such a name has no slash and no dot, and it is empty exactly if the file's name begins
with a dot. The parts of a package are identifiers, apart from a line end behind the last of them.
-/

namespace GrammarBindings

/-- The words are read as options and the path of a grammar, behind a target or in the older
style. -/
inductive Accepted (args : List String) (o : Options) (path : String) : Prop where
  | optionLine (target : Target) (multilingual : Bool)
      (read : readOptionLine target args multilingual = .ok (o, path))
  | singleDash (read : SingleDash.read args = .ok (o, path))

/-- The path is that of a grammar file, and the grammar has its name from it. -/
structure NamesFile (o : Options) (path : String) : Prop where
  isGrammarFile : Path.isGrammarFile path = true
  grammarName : o.grammarName = Path.grammarName path

section Lines

variable {args : List String} {target : Target} {multilingual : Bool} {o : Options} {path : String}

theorem readOptionLine_eq_ok_iff :
    readOptionLine target args multilingual = .ok (o, path) ↔
      ∃ words line, classifyWords args = .ok words ∧
        OptionLine.takeWords {} false words = .ok line ∧ line.complete = .ok path ∧
          Path.isGrammarFile path = true ∧ line.options target multilingual path = .ok o := by
  constructor
  · intro h
    obtain ⟨words, hwords, h⟩ := bind_eq_ok_iff.1 h
    obtain ⟨line, hline, h⟩ := bind_eq_ok_iff.1 h
    obtain ⟨path', hpath, h⟩ := bind_eq_ok_iff.1 h
    cases hfile : Path.isGrammarFile path' with
    | false =>
      rw [hfile] at h
      cases h
    | true =>
      rw [hfile] at h
      obtain ⟨options, hoptions, h⟩ := bind_eq_ok_iff.1 h
      obtain ⟨rfl, rfl⟩ := Prod.mk.inj (pure_eq_ok_iff.1 h)
      exact ⟨words, line, hwords, hline, hpath, hfile, hoptions⟩
  · rintro ⟨words, line, hwords, hline, hpath, hfile, hoptions⟩
    rw [readOptionLine, hwords, ok_bind, hline, ok_bind, hpath, ok_bind, hfile]
    exact bind_eq_ok_iff.2 ⟨o, hoptions, rfl⟩

theorem namesFile_of_readOptionLine
    (h : readOptionLine target args multilingual = .ok (o, path)) : NamesFile o path := by
  obtain ⟨words, line, -, -, -, hfile, hoptions⟩ := readOptionLine_eq_ok_iff.1 h
  obtain ⟨package, -, hoptions⟩ := bind_eq_ok_iff.1 hoptions
  obtain rfl := pure_eq_ok_iff.1 hoptions
  exact ⟨hfile, rfl⟩

/-- What is accepted in the older style: the last word is the grammar, and the text behind the first
package flag is the package. -/
theorem readWords_eq_ok (h : SingleDash.readWords args = .ok (o, path)) :
    SingleDash.grammarPath? args = some path ∧ NamesFile o path ∧
      (SingleDash.packageText? args).mapM checkPackage = .ok o.package := by
  rw [SingleDash.readWords] at h
  split at h
  · cases h
  · next path' hpath =>
    split at h
    · next target _ =>
      cases hfile : Path.isGrammarFile path' with
      | false =>
        rw [hfile] at h
        cases h
      | true =>
        rw [hfile] at h
        obtain ⟨package, hpackage, h⟩ := bind_eq_ok_iff.1 h
        obtain ⟨rfl, rfl⟩ := Prod.mk.inj (pure_eq_ok_iff.1 h)
        exact ⟨hpath, ⟨hfile, rfl⟩, hpackage⟩
    · cases h

theorem Accepted.namesFile (h : Accepted args o path) : NamesFile o path := by
  cases h with
  | optionLine _ _ read => exact namesFile_of_readOptionLine read
  | singleDash read => exact (readWords_eq_ok read).2.1

end Lines

namespace Path

variable {p : String}

theorem slash_notMem_pieces {piece : String} (h : piece ∈ pieces p) : '/' ∉ piece.toList := by
  obtain ⟨cs, hcs, rfl⟩ := List.mem_map.1 h
  rw [String.toList_ofList]
  exact notMem_of_mem_splitOn hcs

theorem slash_notMem_baseName (p : String) : '/' ∉ (baseName p).toList := by
  rw [baseName]
  cases h : (components p).getLast? with
  | none => decide
  | some piece =>
    have hmem : piece ∈ components p := List.mem_of_getLast? h
    exact slash_notMem_pieces (List.mem_of_mem_filter (List.mem_of_mem_filter hmem))

theorem baseName_of_pieces {front : List String} {piece : String}
    (h : pieces p = front ++ [piece]) (hempty : piece ≠ "") (hdot : piece ≠ ".") :
    baseName p = piece := by
  have hlast : components p = (front.filter (· ≠ "")).filter (· ≠ ".") ++ [piece] := by
    rw [components, steps, h, List.filter_append, List.filter_append]
    simp [hempty, hdot]
  rw [baseName, hlast, List.getLast?_concat]
  rfl

/-- The name of a grammar file ends in a dot and an extension. -/
theorem exists_baseName (h : isGrammarFile p = true) :
    ∃ stem, ∃ e ∈ grammarExtensions, (baseName p).toList = stem ++ '.' :: e.toList := by
  obtain ⟨e, he, hsuffix⟩ := List.any_eq_true.1 h
  obtain ⟨before, hp⟩ := List.isSuffixOf_iff_suffix.1 hsuffix
  have hextension : '/' ∉ '.' :: e.toList ∧ e.toList ≠ [] := by
    have hall : ∀ e ∈ grammarExtensions, '/' ∉ '.' :: e.toList ∧ e.toList ≠ [] := by decide
    exact hall e he
  obtain ⟨front, last, -, hsplit⟩ := exists_splitOn_append hextension.1 before
  have hpieces : pieces p =
      front.map String.ofList ++ [String.ofList (last ++ '.' :: e.toList)] := by
    rw [pieces, ← hp, hsplit, List.map_append]
    rfl
  -- the last piece is longer than a single dot, so it is the last component
  have hlength : 1 < (last ++ '.' :: e.toList).length := by
    have hpos := List.length_pos_iff.2 hextension.2
    rw [List.length_append, List.length_cons]
    omega
  have hne : ∀ s : String, s.toList.length ≤ 1 → String.ofList (last ++ '.' :: e.toList) ≠ s := by
    rintro s hs rfl
    rw [String.toList_ofList] at hs
    omega
  have hbase := baseName_of_pieces hpieces (hne "" (by decide)) (hne "." (by decide))
  exact ⟨last, e, he, by rw [hbase, String.toList_ofList]⟩

theorem dot_notMem_grammarName (p : String) : '.' ∉ (grammarName p).toList := by
  rw [grammarName, String.toList_ofList]
  intro h
  simpa using List.all_eq_true.1 List.all_takeWhile _ h

theorem slash_notMem_grammarName (p : String) : '/' ∉ (grammarName p).toList := by
  rw [grammarName, String.toList_ofList]
  exact fun h => slash_notMem_baseName p ((List.takeWhile_sublist _).subset h)

theorem grammarName_eq_empty_iff (h : isGrammarFile p = true) :
    grammarName p = "" ↔ (baseName p).toList.head? = some '.' := by
  obtain ⟨stem, e, -, hbase⟩ := exists_baseName h
  rw [grammarName, hbase]
  cases stem with
  | nil => simp
  | cons c stem =>
    by_cases hc : c = '.'
    · simp [hc]
    · simp [hc, ← String.toList_inj]

end Path

namespace Package

variable {p : Package} {part : String}

theorem exists_dropLineEnd_append (cs : List Char) :
    ∃ behind, (behind = [] ∨ behind = ['\n']) ∧ cs = dropLineEnd cs ++ behind := by
  rw [dropLineEnd]
  split
  · next h => exact ⟨['\n'], .inr rfl, (List.dropLast_append_getLast? _ h).symm⟩
  · exact ⟨[], .inl rfl, (List.append_nil cs).symm⟩

/-- Behind the identifier of the last part there may be a line end. -/
theorem exists_isIdentifier_of_mem_parts (h : part ∈ p.parts) :
    ∃ name behind, isIdentifier name = true ∧ (behind = [] ∨ behind = ['\n']) ∧
      part.toList = name ++ behind := by
  obtain ⟨cs, hcs, rfl⟩ := List.mem_map.1 h
  rw [String.toList_ofList]
  have hformed : ∀ name ∈ (dropLineEnd p.text.toList).splitOn '.', isIdentifier name = true :=
    List.all_eq_true.1 p.wellFormed
  obtain ⟨behind, hbehind, htext⟩ := exists_dropLineEnd_append p.text.toList
  have hdot : '.' ∉ behind := by
    rcases hbehind with rfl | rfl <;> decide
  obtain ⟨front, last, hfront, hsplit⟩ := exists_splitOn_append hdot (dropLineEnd p.text.toList)
  rw [htext, hsplit] at hcs
  rw [hfront] at hformed
  rcases List.mem_append.1 hcs with hcs | hcs
  · exact ⟨cs, [], hformed cs (List.mem_append_left _ hcs), .inl rfl, (List.append_nil cs).symm⟩
  · obtain rfl := List.mem_singleton.1 hcs
    exact ⟨last, behind, hformed last (by simp), hbehind, rfl⟩

theorem continuesIdentifier_of_mem {name : List Char} (h : isIdentifier name = true) {c : Char}
    (hc : c ∈ name) : continuesIdentifier c = true := by
  cases name with
  | nil => cases hc
  | cons first others =>
    rw [isIdentifier, Bool.and_eq_true] at h
    rcases List.mem_cons.1 hc with rfl | hc
    · rw [continuesIdentifier, h.1, Bool.true_or, Bool.true_or]
    · exact List.all_eq_true.1 h.2 c hc

theorem ne_empty_of_mem_parts (h : part ∈ p.parts) : part ≠ "" := by
  obtain ⟨name, behind, hname, -, hpart⟩ := exists_isIdentifier_of_mem_parts h
  rintro rfl
  obtain ⟨rfl, -⟩ := List.append_eq_nil_iff.1 hpart.symm
  cases hname

theorem slash_notMem_of_mem_parts (h : part ∈ p.parts) : '/' ∉ part.toList := by
  obtain ⟨name, behind, hname, hbehind, hpart⟩ := exists_isIdentifier_of_mem_parts h
  rw [hpart, List.mem_append]
  rintro (hmem | hmem)
  · cases continuesIdentifier_of_mem hname hmem
  · rcases hbehind with rfl | rfl
    · cases hmem
    · exact absurd hmem (by decide)

theorem dot_notMem_of_mem_parts (h : part ∈ p.parts) : '.' ∉ part.toList := by
  obtain ⟨cs, hcs, rfl⟩ := List.mem_map.1 h
  rw [String.toList_ofList]
  exact notMem_of_mem_splitOn hcs

theorem map_toList_parts (p : Package) : p.parts.map String.toList = p.text.toList.splitOn '.' := by
  simp [parts, Function.comp_def]

/-- A package is made of its parts, with dots between them. -/
theorem text_eq (p : Package) : p.text = ".".intercalate p.parts := by
  rw [← String.toList_inj, String.toList_intercalate, map_toList_parts]
  exact (List.intercalate_splitOn '.').symm

theorem parts_ne_nil (p : Package) : p.parts ≠ [] :=
  mt List.map_eq_nil_iff.1 (List.splitOn_ne_nil '.' p.text.toList)

end Package
end GrammarBindings

import GrammarBindings.Proofs.GlobalOptions
import GrammarBindings.Run.CommandLine

/-!
# The two styles of command line

A line that looks like one of the older style begins with an option word that is an error, or is a
single word with a dot, which neither an option nor a target has. So the newer style refuses it
either way: no line belongs to both styles, and it makes no difference which of them is asked for
first.
-/

namespace GrammarBindings

theorem GlobalOption.dot_notMem_word (o : GlobalOption) : '.' ∉ o.word.toList := by
  cases o <;> decide

theorem Target.dot_notMem_word (t : Target) : '.' ∉ t.word.toList := by
  cases t <;> decide

theorem Path.dot_mem_of_isGrammarFile {p : String} (h : isGrammarFile p = true) :
    '.' ∈ p.toList := by
  obtain ⟨e, -, hsuffix⟩ := List.any_eq_true.1 h
  exact (List.isSuffixOf_iff_suffix.1 hsuffix).subset List.mem_cons_self

variable {w : String} {ws args : List String} {os : List GlobalOption} {es : List UsageError}

/-- A word with a dot says an error, since no option has a dot in it. -/
theorem Says.errors_ne_nil_of_dot (h : Says w os es) (hdot : '.' ∈ w.toList) : es ≠ [] := by
  cases h with
  | @option name o long stands =>
    have hname : '.' ∈ name.toList := by
      rw [long.toList_eq] at hdot
      simpa using hdot
    exact absurd (stands.begins.subset hname) o.dot_notMem_word
  | needless _ _ => exact List.cons_ne_nil _ _
  | unknown _ _ => exact List.cons_ne_nil _ _
  | ambiguous _ _ _ _ => exact List.cons_ne_nil _ _
  | short _ _ => exact List.cons_ne_nil _ _

theorem Target.ofWord?_of_dot (hdot : '.' ∈ w.toList) : ofWord? w = none := by
  refine List.find?_eq_none.2 fun t _ ht => ?_
  obtain rfl : t.word = w := by simpa using ht
  exact t.dot_notMem_word hdot

namespace Mode

/-- An error in the first word is the mode. -/
theorem exists_failure_of_says (h : Says w os es) (hne : es ≠ []) (ws : List String) :
    ∃ e, ofWords (w :: ws) = failure e := by
  obtain ⟨e, es, rfl⟩ := List.exists_cons_of_ne_nil hne
  exact ⟨e, ofWords_of_error (.cons h .nil) ws⟩

/-- A single word with a dot is refused, be it an option or not. -/
theorem exists_failure_of_dot (hdot : '.' ∈ w.toList) : ∃ e, ofWords [w] = failure e := by
  by_cases hw : IsOptionWord w
  · obtain ⟨os, es, hword⟩ := exists_says hw
    exact exists_failure_of_says hword (hword.errors_ne_nil_of_dot hdot) []
  · have hends : EndsOptions [w] := by simpa [EndsOptions] using hw
    have hne : w ≠ "--" := by
      rintro rfl
      exact absurd hdot (by decide)
    refine ⟨.invalidTarget w, ?_⟩
    rw [ofWords, ofWords_of_endsOptions hends, withoutSeparator_of_ne hne]
    simp [ofScan, Target.ofWord?_of_dot hdot]

end Mode

namespace SingleDash

/-- A line looks like one of the older style if it begins with a single dash and more, or is nothing
but a grammar file. -/
theorem isLikely_iff :
    isLikely args = true ↔
      (∃ w ws c cs, args = w :: ws ∧ w.toList = '-' :: c :: cs ∧ c ≠ '-') ∨
        ∃ w, args = [w] ∧ Path.isGrammarFile w = true := by
  cases args with
  | nil => simp [isLikely]
  | cons w ws =>
    rw [isLikely]
    split
    · next c cs hw => simp [hw]
    · next hw => simp_all

theorem exists_failure_of_isLikely (h : isLikely args = true) :
    ∃ e, Mode.ofWords args = .failure e := by
  rcases isLikely_iff.1 h with ⟨w, ws, c, cs, rfl, hw, hc⟩ | ⟨w, rfl, hw⟩
  · exact Mode.exists_failure_of_says (.short hc hw) (List.cons_ne_nil _ _) ws
  · exact Mode.exists_failure_of_dot (Path.dot_mem_of_isGrammarFile hw)

end SingleDash

namespace CommandLine

/-- Reads a line of the older style, with all warnings about it. -/
def readOlder (args : List String) : List Log.Entry × Except UsageError Resolution :=
  ((SingleDash.oldSpellingWarnings args ++ SingleDash.deprecations args).map Log.warning,
    (SingleDash.read args).map fun (o, path) => .generate o path)

/-- Resolves a line by asking first whether it is of the older style. -/
def resolveOlderFirst (args : List String) : List Log.Entry × Except UsageError Resolution :=
  if SingleDash.isLikely args then readOlder args
  else
    match Mode.ofWords args with
    | .help => ([], .ok (.print usage))
    | .version => ([], .ok (.print (version ++ "\n")))
    | .generate target args multilingual =>
      ([], (readOptionLine target args multilingual).map fun (o, path) => .generate o path)
    | .failure e => ((SingleDash.oldSpellingWarnings args).map Log.warning, .error e)

theorem resolve_of_isLikely (h : SingleDash.isLikely args = true) :
    resolve args = readOlder args := by
  obtain ⟨e, he⟩ := SingleDash.exists_failure_of_isLikely h
  rw [resolve, he, readOlder, List.map_append]
  dsimp only
  rw [resolveSingleDash, if_pos h]

theorem resolve_of_not_isLikely (h : ¬ SingleDash.isLikely args = true) :
    resolve args = resolveOlderFirst args := by
  rw [resolve, resolveOlderFirst, if_neg h]
  cases Mode.ofWords args with
  | failure e => simp [resolveSingleDash, h]
  | _ => rfl

/-- No line belongs to both styles: a line that looks like one of the older style is refused by the
newer and read in the older, a line of which the newer style makes anything does not look like one
of the older, and asking for the older style first gives the same. -/
theorem styles_exclude_each_other (args : List String) :
    (SingleDash.isLikely args = true →
      (∃ e, Mode.ofWords args = .failure e) ∧ resolve args = readOlder args) ∧
    ((Mode.ofWords args).isFailure = false → SingleDash.isLikely args = false) ∧
    resolve args = resolveOlderFirst args := by
  refine ⟨fun h => ⟨SingleDash.exists_failure_of_isLikely h, resolve_of_isLikely h⟩, ?_, ?_⟩
  · intro hmode
    refine Bool.eq_false_iff.2 fun h => ?_
    obtain ⟨e, he⟩ := SingleDash.exists_failure_of_isLikely h
    rw [he] at hmode
    cases hmode
  · by_cases h : SingleDash.isLikely args = true
    · rw [resolve_of_isLikely h, resolveOlderFirst, if_pos h]
    · exact resolve_of_not_isLikely h

end CommandLine
end GrammarBindings

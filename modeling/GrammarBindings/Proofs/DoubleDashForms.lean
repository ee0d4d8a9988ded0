import GrammarBindings.Options.SingleDash
import Mathlib.Data.List.Basic

/-!
# Double-dash forms of old flags

Bringing old flags into their forms with two dashes goes word by word, and so does telling the user
of them. No form contains an old flag, so what was brought into the new form stays as it is and
there is nothing more to tell.
-/

namespace GrammarBindings
namespace SingleDash

/-- The flags that have a form with two dashes. -/
def oldFlags : List String := doubleDashForms.map Prod.fst

variable {w v : String} {args : List String}

theorem lookup_eq_none_iff : doubleDashForms.lookup w = none ↔ w ∉ oldFlags := by
  rw [List.lookup_eq_none_iff, oldFlags, List.mem_map]
  constructor
  · rintro h ⟨form, hform, rfl⟩
    simpa using h form hform
  · intro h form hform
    exact bne_iff_ne.2 fun he => h ⟨form, hform, he.symm⟩

/-- No word of a form is itself an old flag. -/
theorem notMem_oldFlags_of_mem_form :
    ∀ form ∈ doubleDashForms, ∀ v ∈ form.2, v ∉ oldFlags := by
  decide

theorem toDoubleDashWord_of_notMem (h : w ∉ oldFlags) : toDoubleDashWord w = [w] := by
  rw [toDoubleDashWord, lookup_eq_none_iff.2 h]
  rfl

theorem notMem_of_mem_toDoubleDashWord (h : v ∈ toDoubleDashWord w) : v ∉ oldFlags := by
  rw [toDoubleDashWord] at h
  cases hform : doubleDashForms.lookup w with
  | none =>
    rw [hform] at h
    obtain rfl := List.mem_singleton.1 h
    exact lookup_eq_none_iff.1 hform
  | some new =>
    rw [hform] at h
    obtain ⟨before, behind, htable, -⟩ := List.lookup_eq_some_iff.1 hform
    have hmem : (w, new) ∈ doubleDashForms := by
      rw [htable]
      exact List.mem_append_cons_self
    exact notMem_oldFlags_of_mem_form _ hmem v h

theorem notMem_of_mem_toDoubleDash (h : v ∈ toDoubleDash args) : v ∉ oldFlags := by
  obtain ⟨w, -, hv⟩ := List.mem_flatMap.1 h
  exact notMem_of_mem_toDoubleDashWord hv

/-- A line stays as it is exactly if it has no old flags. -/
theorem toDoubleDash_eq_self_iff : toDoubleDash args = args ↔ ∀ w ∈ args, w ∉ oldFlags := by
  constructor
  · intro h w hw
    rw [← h] at hw
    exact notMem_of_mem_toDoubleDash hw
  · intro h
    calc toDoubleDash args
        = args.flatMap fun w => [w] :=
          List.flatMap_congr fun w hw => toDoubleDashWord_of_notMem (h w hw)
      _ = args := List.flatMap_singleton' args

theorem isSome_deprecation? (w : String) : (deprecation? w).isSome = decide (w ∈ oldFlags) := by
  rw [deprecation?, Option.isSome_map, Bool.eq_iff_iff, Option.isSome_iff_ne_none,
    decide_eq_true_eq, ne_eq, lookup_eq_none_iff, not_not]

theorem length_deprecations (args : List String) :
    (deprecations args).length = args.countP (· ∈ oldFlags) := by
  rw [deprecations, List.length_filterMap_eq_countP]
  simp only [isSome_deprecation?]

theorem deprecations_eq_nil_iff : deprecations args = [] ↔ ∀ w ∈ args, w ∉ oldFlags := by
  rw [← List.length_eq_zero_iff, length_deprecations, List.countP_eq_zero]
  simp

/-- The forms and the warnings of a line are those of its words in order. A line in the new forms
stays as it is and has no warnings, there is one warning for each old flag, and a line without
warnings is one that stays as it is. -/
theorem toDoubleDash_and_deprecations (as bs : List String) :
    (toDoubleDash (as ++ bs) = toDoubleDash as ++ toDoubleDash bs ∧
      deprecations (as ++ bs) = deprecations as ++ deprecations bs) ∧
    (toDoubleDash (toDoubleDash as) = toDoubleDash as ∧ deprecations (toDoubleDash as) = []) ∧
    (deprecations as).length = as.countP (· ∈ oldFlags) ∧
    (toDoubleDash as = as ↔ deprecations as = []) := by
  have hforms : ∀ v ∈ toDoubleDash as, v ∉ oldFlags := fun v hv => notMem_of_mem_toDoubleDash hv
  refine ⟨⟨toDoubleDash_append as bs, deprecations_append as bs⟩, ⟨?_, ?_⟩, ?_, ?_⟩
  · exact toDoubleDash_eq_self_iff.2 hforms
  · exact deprecations_eq_nil_iff.2 hforms
  · exact length_deprecations as
  · rw [toDoubleDash_eq_self_iff, deprecations_eq_nil_iff]

/-- Two old flags on a line, one of which has a form of two words. -/
theorem toDoubleDash_and_deprecations_two :
    toDoubleDash ["-m", "-cpp_stl", "-xml", "Calc.cf"] =
        ["-m", "--cpp", "--stl", "--xml", "Calc.cf"] ∧
      deprecations ["-m", "-cpp_stl", "-xml", "Calc.cf"] =
        ["Option -cpp_stl is deprecated, use --cpp --stl instead",
          "Option -xml is deprecated, use --xml instead"] ∧
      toDoubleDash ["-m", "--cpp", "--stl", "--xml", "Calc.cf"] =
        ["-m", "--cpp", "--stl", "--xml", "Calc.cf"] ∧
      deprecations ["-m", "--cpp", "--stl", "--xml", "Calc.cf"] = [] := by
  have hforms : toDoubleDash ["-m", "-cpp_stl", "-xml", "Calc.cf"] =
      ["-m", "--cpp", "--stl", "--xml", "Calc.cf"] := by decide
  have hwarnings : deprecations ["-m", "-cpp_stl", "-xml", "Calc.cf"] =
      ["Option -cpp_stl is deprecated, use --cpp --stl instead",
        "Option -xml is deprecated, use --xml instead"] := by decide
  obtain ⟨-, ⟨hagain, hsilent⟩, -⟩ :=
    toDoubleDash_and_deprecations ["-m", "-cpp_stl", "-xml", "Calc.cf"] []
  rw [hforms] at hagain hsilent
  exact ⟨hforms, hwarnings, hagain, hsilent⟩

end SingleDash
end GrammarBindings

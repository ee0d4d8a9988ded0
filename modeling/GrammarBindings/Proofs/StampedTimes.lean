import GrammarBindings.Settings
import GrammarBindings.Proofs.CalendarMinutes
import GrammarBindings.Proofs.SignedNumerals

/-!
# Stamped times

A time that is set is stamped as it is. Otherwise the epoch variable counts, if it is an integer
within the calendar's range, and its minute is stamped; whatever else it holds is left out of account
with a warning.
-/

namespace GrammarBindings

open Text Calendar CivilMinute

variable {settings : Settings} {env : Environment} {now c c' : CivilMinute} {text time : String}
  {e e' : Int}

theorem nonempty?_of_ne (h : text ≠ "") : nonempty? text = some text := by
  rw [nonempty?, if_neg]
  simpa using h

theorem bind_nonempty?_eq_none {v? : Option String} (h : ∀ v, v? = some v → v = "") :
    v?.bind nonempty? = none := by
  cases v? with
  | none => rfl
  | some v =>
    rw [h v rfl]
    rfl

section Epoch

variable (htime : ∀ time, settings.timestamp? = some time → time = "")
  (henv : env "SOURCE_DATE_EPOCH" = some text) (htext : text ≠ "")

include htime henv htext

theorem stamp_of_ofEpoch? (h : (readSigned? text).bind ofEpoch? = some c) (now : CivilMinute) :
    stamp settings env now = (c.written, []) := by
  rw [stamp, bind_nonempty?_eq_none htime, henv, Option.bind_some, nonempty?_of_ne htext]
  simp only [h]

theorem stamp_of_ofEpoch?_eq_none (h : (readSigned? text).bind ofEpoch? = none)
    (now : CivilMinute) :
    stamp settings env now =
      (now.written, [Log.warning ("ignoring malformed SOURCE_DATE_EPOCH=" ++ quote text)]) := by
  rw [stamp, bind_nonempty?_eq_none htime, henv, Option.bind_some, nonempty?_of_ne htext]
  simp only [h]

end Epoch

theorem CivilMinute.Contains.written_eq_iff (h : c.Contains e) (h' : c'.Contains e') :
    c.written = c'.written ↔ e / 60 = e' / 60 := by
  have hnumber := h.number_eq
  have hnumber' := h'.number_eq
  constructor
  · intro hwritten
    rw [h.valid.eq_of_written h'.valid hwritten] at hnumber
    omega
  · intro hminute
    rw [h.valid.eq_of_number h'.valid (by omega)]

theorem CivilMinute.Contains.lt_iff (h : c.Contains e) (h' : c'.Contains e') :
    e / 60 < e' / 60 ↔ c.fields < c'.fields := by
  have hnumber := h.number_eq
  have hnumber' := h'.number_eq
  rw [← h.valid.number_lt_iff h'.valid]
  omega

/-- A time that is set is stamped. Otherwise an integer of the epoch variable is stamped as its minute,
and anything else in it as the present. Different minutes are stamped differently, and are in the
order of their fields. -/
theorem stamp_of_time_or_epoch (settings : Settings) (env : Environment) (now : CivilMinute) :
    (∀ time, settings.timestamp? = some time → time ≠ "" →
      stamp settings env now = (time, [])) ∧
    ((∀ time, settings.timestamp? = some time → time = "") →
      ∀ text, env "SOURCE_DATE_EPOCH" = some text → text ≠ "" →
        (∀ e, SpellsInteger text e → -62135596800 ≤ e → e ≤ 253402300799 →
          ∃ c : CivilMinute, c.Contains e ∧ stamp settings env now = (c.written, [])) ∧
        ((∀ e, SpellsInteger text e → ¬ (-62135596800 ≤ e ∧ e ≤ 253402300799)) →
          stamp settings env now = (now.written,
            [Log.warning ("ignoring malformed SOURCE_DATE_EPOCH=" ++ quote text)]))) ∧
    ∀ (c c' : CivilMinute) (e e' : Int), c.Contains e → c'.Contains e' →
      (c.written = c'.written ↔ e / 60 = e' / 60) ∧ (e / 60 < e' / 60 ↔ c.fields < c'.fields) := by
  refine ⟨?_, ?_, ?_⟩
  · intro time htime hne
    rw [stamp, htime, Option.bind_some, nonempty?_of_ne hne]
  · intro htime text henv htext
    constructor
    · intro e hspells hfirst hlast
      obtain ⟨c, hc, hcontains⟩ := exists_contains hfirst hlast
      have hread : (readSigned? text).bind ofEpoch? = some c := by
        rw [readSigned?_eq_some_iff.2 hspells, Option.bind_some, hc]
      exact ⟨c, hcontains, stamp_of_ofEpoch? htime henv htext hread now⟩
    · intro hnone
      have hread : (readSigned? text).bind ofEpoch? = none := by
        rw [Option.bind_eq_none_iff]
        intro e he
        exact if_neg (hnone e (readSigned?_eq_some_iff.1 he))
      exact stamp_of_ofEpoch?_eq_none htime henv htext hread now
  · intro c c' e e' h h'
    exact ⟨h.written_eq_iff h', h.lt_iff h'⟩

theorem stamp_of_time_or_epoch_before :
    let env : Environment := fun name =>
      if name = "SOURCE_DATE_EPOCH" then some "\t-6_2" else none
    let late : Environment := fun name =>
      if name = "SOURCE_DATE_EPOCH" then some "253402300800" else none
    let now : CivilMinute := ⟨2024, 2, 29, 12, 0⟩
    stamp { timestamp? := some "today" } env now = ("today", []) ∧
      SpellsInteger "\t-6_2" (-62) ∧
      (∃ c : CivilMinute, c.Contains (-62) ∧ stamp {} env now = (c.written, []) ∧
        c.written = "1969-12-31 23:58 UTC") ∧
      SpellsInteger "253402300800" 253402300800 ∧
      stamp {} late now = ("2024-02-29 12:00 UTC",
        [Log.warning "ignoring malformed SOURCE_DATE_EPOCH=\x27253402300800\x27"]) := by
  intro env late now
  have hset := (stamp_of_time_or_epoch { timestamp? := some "today" } env now).1
  obtain ⟨-, hepoch, -⟩ := stamp_of_time_or_epoch {} env now
  obtain ⟨-, hlate, -⟩ := stamp_of_time_or_epoch {} late now
  have hbefore : SpellsInteger "\t-6_2" (-62) := readSigned?_eq_some_iff.1 (by decide +kernel)
  have hread : readSigned? "253402300800" = some 253402300800 := by decide +kernel
  have houtside : ∀ e, SpellsInteger "253402300800" e →
      ¬ (-62135596800 ≤ e ∧ e ≤ 253402300799) := by
    intro e he
    obtain rfl := Option.some.inj (hread.symm.trans (readSigned?_eq_some_iff.2 he))
    decide
  obtain ⟨c, hcontains, hstamp⟩ :=
    (hepoch nofun "\t-6_2" rfl (by decide)).1 (-62) hbefore (by decide) (by decide)
  have hwritten : stamp {} env now = ("1969-12-31 23:58 UTC", []) := by decide +kernel
  refine ⟨hset "today" rfl (by decide), hbefore, ⟨c, hcontains, hstamp, ?_⟩,
    readSigned?_eq_some_iff.1 hread, ?_⟩
  · rw [hstamp] at hwritten
    exact congrArg Prod.fst hwritten
  · rw [(hlate nofun "253402300800" rfl (by decide)).2 houtside]
    decide +kernel

end GrammarBindings

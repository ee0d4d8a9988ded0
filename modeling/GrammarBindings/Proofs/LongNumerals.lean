import GrammarBindings.Proofs.Outcomes
import GrammarBindings.Proofs.TomlSuffixes

/-!
# Long numerals in TOML documents

A reader that may refuse a numeral for its length leaves an end of its text otherwise, so that what
is read behind it stands in the text as well. A document in which a numeral is refused has therefore
more digits than a numeral may have.
-/

namespace GrammarBindings.Toml

open Text

/-- The text has as many digits as the numeral that was too long, or more. -/
def HasLongNumeral (f : NumeralFault) (cs : List Char) : Prop :=
  ∃ n, f = .tooLong n ∧ maxDigits < n ∧ n ≤ cs.countP isAsciiDigit

theorem HasLongNumeral.mono {f : NumeralFault} {cs ds : List Char} (h : HasLongNumeral f cs)
    (hcs : cs.Sublist ds) : HasLongNumeral f ds := by
  obtain ⟨n, hf, hlong, hn⟩ := h
  exact ⟨n, hf, hlong, Nat.le_trans hn hcs.countP_le⟩

/-- A reader leaves an end of the text, or refuses a numeral that stands in it. -/
structure Leaves {α : Type} (cs : List Char) (rest : α → List Char) (x : Except Fault α) :
    Prop where
  suffix : ∀ a, x = .ok a → rest a <:+ cs
  numeral : ∀ f, x = .error (.numeral f) → HasLongNumeral f cs

section Readers

variable {α β : Type} {cs : List Char} {rest : α → List Char} {more : β → List Char}

theorem leaves_ok {a : α} (h : rest a <:+ cs) : Leaves cs rest (.ok a) where
  suffix := by
    rintro _ ⟨⟩
    exact h
  numeral := nofun

theorem leaves_malformed : Leaves cs rest (.error .malformed) where
  suffix := nofun
  numeral := nofun

theorem leaves_orMalformed {x : Option α} (h : ∀ a, x = some a → rest a <:+ cs) :
    Leaves cs rest (orMalformed x) := by
  cases x with
  | none => exact leaves_malformed
  | some a => exact leaves_ok (h a rfl)

theorem Leaves.mono {ds : List Char} {x : Except Fault α} (h : Leaves cs rest x)
    (hcs : cs <:+ ds) : Leaves ds rest x where
  suffix a ha := (h.suffix a ha).trans hcs
  numeral f hf := (h.numeral f hf).mono hcs.sublist

/-- What is left by a first reader is read by a second. -/
theorem Leaves.bind {x : Except Fault α} {g : α → Except Fault β} (h : Leaves cs rest x)
    (hg : ∀ a, Leaves (rest a) more (g a)) : Leaves cs more (x >>= g) := by
  cases x with
  | error e => exact ⟨nofun, fun f hf => h.numeral f (by cases hf; rfl)⟩
  | ok a => exact (hg a).mono (h.suffix a rfl)

theorem Leaves.map {x : Except Fault α} {g : α → β} (h : Leaves cs rest x)
    (hg : ∀ a, more (g a) = rest a) : Leaves cs more (x.map g) := by
  cases x with
  | error e => exact ⟨nofun, fun f hf => h.numeral f (by cases hf; rfl)⟩
  | ok a => exact leaves_ok (hg a ▸ h.suffix a rfl)

theorem leaves_decimal? {x : Except Fault (List Char)} (h : decimal? cs = some x) :
    Leaves cs id x := by
  obtain ⟨⟨ds, behind⟩, hwhole, h⟩ := Option.bind_eq_some_iff.1 h
  obtain ⟨hbehind, hds⟩ := wholePart?_spec hwhole
  have hsign := suffix_dropSign cs
  dsimp only at h
  split at h
  · next hlong =>
    cases h
    have hcount := Nat.le_trans hds hsign.sublist.countP_le
    refine ⟨nofun, fun f hf => ⟨ds.length, ?_, ?_, hcount⟩⟩
    · cases hf
      rfl
    · exact of_decide_eq_true (Bool.and_eq_true_iff.1 hlong).2
  · cases h
    have hrest := (suffix_dropExponent _).trans (suffix_dropDecimals behind)
    exact leaves_ok (hrest.trans (hbehind.trans hsign))

theorem leaves_scalar? {x : Except Fault (List Char)} (h : scalar? cs = some x) :
    Leaves cs id x := by
  have hplain {o : Option (List Char)} (ho : ∀ rest, o = some rest → rest <:+ cs)
      (hx : o.map Except.ok = some x) : Leaves cs id x := by
    obtain ⟨rest, hrest, rfl⟩ := Option.map_eq_some_iff.1 hx
    exact leaves_ok (ho rest hrest)
  rw [scalar?, Option.or_eq_some_iff] at h
  rcases h with h | ⟨-, h⟩
  · rcases Option.or_eq_some_iff.1 h with h | ⟨-, h⟩
    · rcases Option.or_eq_some_iff.1 h with h | ⟨-, h⟩
      · cases x with
        | ok rest => exact leaves_ok (suffix_of_date? h)
        | error e =>
          cases e with
          | malformed => exact leaves_malformed
          | numeral f => exact absurd h (date?_ne_numeral f)
      · refine hplain (fun rest hrest => ?_) h
        rcases Option.or_eq_some_iff.1 hrest with hrest | ⟨-, hrest⟩
        · exact suffix_of_time? hrest
        · exact suffix_of_basedInteger? hrest
    · exact leaves_decimal? h
  · exact hplain (fun rest hrest => suffix_of_specialWord? hrest) h

theorem leaves_arrayGap (cs : List Char) : Leaves cs id (arrayGap cs) :=
  leaves_orMalformed fun _ h => suffix_of_dropArrayGap h

/-- What is done to the tables of a document reads nothing. -/
theorem leaves_all (x : Option α) (cs : List Char) : Leaves cs (fun _ => cs) (orMalformed x) :=
  leaves_orMalformed fun _ _ => List.suffix_rfl

theorem leaves_addInline (t : Table) (closed : List Key) (k : Key) (v : Value) (cs : List Char) :
    Leaves cs (fun _ => cs) (addInline t closed k v) :=
  leaves_all _ cs

section Step

variable {fuel : Nat}

theorem leaves_valueWithin_succ
    (helements : ∀ cs, Leaves cs Prod.snd (elementsWithin fuel cs))
    (hpairs : ∀ t closed cs, Leaves cs Prod.snd (pairsWithin fuel t closed cs)) (cs : List Char) :
    Leaves cs Prod.snd (valueWithin (fuel + 1) cs) := by
  rw [valueWithin.eq_def]
  dsimp only
  split
  · refine Leaves.mono ?_ (List.suffix_cons _ _)
    exact (leaves_arrayGap _).bind fun r =>
      (helements r).bind fun a => leaves_ok List.suffix_rfl
  · next more =>
    have hmore := (List.dropWhile_suffix isMargin).trans (List.suffix_cons '\x7b' more)
    split
    · next rest hrest =>
      exact leaves_ok ((List.suffix_cons '\x7d' rest).trans (hrest ▸ hmore))
    · refine Leaves.mono ?_ hmore
      exact (hpairs [] [] _).bind fun a => leaves_ok List.suffix_rfl
  · split
    · exact (leaves_orMalformed fun a h => suffix_of_quoted? h).map fun a => rfl
    · split
      · next x hx => exact (leaves_scalar? hx).map fun a => rfl
      · exact leaves_malformed
  · exact leaves_malformed

theorem leaves_elementsWithin_succ (hvalue : ∀ cs, Leaves cs Prod.snd (valueWithin fuel cs))
    (helements : ∀ cs, Leaves cs Prod.snd (elementsWithin fuel cs)) (cs : List Char) :
    Leaves cs Prod.snd (elementsWithin (fuel + 1) cs) := by
  rw [elementsWithin.eq_def]
  dsimp only
  split
  · exact leaves_ok (List.suffix_cons _ _)
  · refine (hvalue cs).bind fun a => (leaves_arrayGap a.2).bind fun r => ?_
    split
    · exact leaves_ok (List.suffix_cons _ _)
    · refine Leaves.mono ?_ (List.suffix_cons _ _)
      exact (leaves_arrayGap _).bind fun r' =>
        (helements r').bind fun b => leaves_ok List.suffix_rfl
    · exact leaves_malformed

theorem leaves_pairsWithin_succ (hvalue : ∀ cs, Leaves cs Prod.snd (valueWithin fuel cs))
    (hpairs : ∀ t closed cs, Leaves cs Prod.snd (pairsWithin fuel t closed cs)) (t : Table)
    (closed : List Key) (cs : List Char) :
    Leaves cs Prod.snd (pairsWithin (fuel + 1) t closed cs) := by
  rw [pairsWithin.eq_def]
  dsimp only
  refine (leaves_orMalformed fun a h => suffix_of_key? h).bind fun a => ?_
  split
  · next more hmore =>
    have hvalueStart := (List.dropWhile_suffix isMargin).trans (List.suffix_cons '=' more)
    refine Leaves.mono ?_ (hmore ▸ hvalueStart)
    refine (hvalue _).bind fun b => (leaves_addInline t closed a.1 b.1 b.2).bind fun u => ?_
    have hb : b.2.dropWhile isMargin <:+ b.2 := List.dropWhile_suffix isMargin
    split
    · next rest hrest => exact leaves_ok ((List.suffix_cons '\x7d' rest).trans (hrest ▸ hb))
    · next rest hrest =>
      have hcomma : ',' :: rest <:+ b.2 := hrest ▸ hb
      have hpair := (List.dropWhile_suffix isMargin).trans (List.suffix_cons ',' rest)
      exact (hpairs _ _ _).mono (hpair.trans hcomma)
    · exact leaves_malformed
  · exact leaves_malformed

end Step

/-- The three readers of values call each other with less fuel. -/
theorem leaves_within (fuel : Nat) :
    (∀ cs, Leaves cs Prod.snd (valueWithin fuel cs)) ∧
      (∀ cs, Leaves cs Prod.snd (elementsWithin fuel cs)) ∧
      ∀ t closed cs, Leaves cs Prod.snd (pairsWithin fuel t closed cs) := by
  induction fuel with
  | zero =>
    refine ⟨fun cs => ?_, fun cs => ?_, fun t closed cs => ?_⟩
    all_goals exact leaves_malformed
  | succ fuel ih =>
    obtain ⟨hvalue, helements, hpairs⟩ := ih
    exact ⟨leaves_valueWithin_succ helements hpairs, leaves_elementsWithin_succ hvalue helements,
      leaves_pairsWithin_succ hvalue hpairs⟩

theorem leaves_value (cs : List Char) : Leaves cs Prod.snd (value cs) :=
  (leaves_within _).1 cs

theorem leaves_openTable (d : Draft) (k : Key) (cs : List Char) :
    Leaves cs (fun _ => cs) (d.openTable k) := by
  rw [Draft.openTable]
  split
  · exact leaves_malformed
  · exact (leaves_all _ cs).bind fun _ => leaves_ok List.suffix_rfl

theorem leaves_openElement (d : Draft) (k : Key) (cs : List Char) :
    Leaves cs (fun _ => cs) (d.openElement k) := by
  rw [Draft.openElement]
  split
  · exact leaves_malformed
  · refine (leaves_all _ cs).bind fun _ => (leaves_all _ cs).bind fun _ => ?_
    exact leaves_ok List.suffix_rfl

theorem leaves_add (d : Draft) (k : Key) (v : Value) (cs : List Char) :
    Leaves cs (fun _ => cs) (d.add k v) := by
  rw [Draft.add]
  dsimp only
  split
  · exact leaves_malformed
  · refine (leaves_all _ cs).bind fun _ => ?_
    split
    · exact leaves_malformed
    · exact (leaves_all _ cs).bind fun _ => leaves_ok List.suffix_rfl

theorem leaves_takeStatement (d : Draft) (cs : List Char) :
    Leaves cs Prod.snd (d.takeStatement cs) := by
  rw [Draft.takeStatement.eq_def]
  split
  · refine Leaves.mono ?_ ((List.dropWhile_suffix isMargin).trans ⟨['[', '['], rfl⟩)
    refine (leaves_orMalformed fun a h => suffix_of_key? h).bind fun a => ?_
    refine (leaves_openElement _ _ _).bind fun e => ?_
    split
    · next rest hrest => exact leaves_ok (hrest ▸ ⟨[']', ']'], rfl⟩)
    · exact leaves_malformed
  · refine Leaves.mono ?_ ((List.dropWhile_suffix isMargin).trans (List.suffix_cons '[' _))
    refine (leaves_orMalformed fun a h => suffix_of_key? h).bind fun a => ?_
    refine (leaves_openTable _ _ _).bind fun e => ?_
    split
    · next rest hrest => exact leaves_ok (hrest ▸ List.suffix_cons ']' rest)
    · exact leaves_malformed
  · exact leaves_ok List.suffix_rfl
  · dsimp only
    split
    · exact leaves_malformed
    · refine (leaves_orMalformed fun a h => suffix_of_key? h).bind fun a => ?_
      split
      · next more hmore =>
        have hvalueStart := (List.dropWhile_suffix isMargin).trans (List.suffix_cons '=' more)
        refine Leaves.mono ?_ (hmore ▸ hvalueStart)
        refine (leaves_value _).bind fun b => (leaves_add d a.1 b.1 b.2).bind fun e => ?_
        exact leaves_ok List.suffix_rfl
      · exact leaves_malformed
  · exact leaves_ok List.suffix_rfl

theorem leaves_takeLines (d : Draft) (fuel : Nat) (cs : List Char) :
    Leaves cs (fun _ => []) (d.takeLines fuel cs) := by
  induction fuel generalizing d cs with
  | zero => exact leaves_malformed
  | succ fuel ih =>
    have hmargin : cs.dropWhile isMargin <:+ cs := List.dropWhile_suffix _
    rw [Draft.takeLines]
    split
    · exact leaves_ok List.nil_suffix
    · next rest hrest => exact (ih d rest).mono ((List.suffix_cons _ _).trans (hrest ▸ hmargin))
    · refine ((leaves_takeStatement d _).bind fun a => ?_).mono hmargin
      refine Leaves.mono ?_ (List.dropWhile_suffix isMargin)
      refine (leaves_orMalformed fun r h => suffix_of_dropComment h).bind fun r => ?_
      split
      · exact leaves_ok List.nil_suffix
      · exact (ih _ _).mono (List.suffix_cons _ _)
      · exact leaves_malformed

end Readers

theorem foldCrLf_sublist (cs : List Char) : (foldCrLf cs).Sublist cs := by
  fun_induction foldCrLf cs with
  | case1 cs ih => exact (ih.cons_cons '\n').cons '\r'
  | case2 c cs _ ih => exact ih.cons_cons c
  | case3 => exact List.Sublist.refl []

/-- A document whose reading meets a numeral that is too long has as many digits as this one. -/
theorem hasLongNumeral_of_read {text : String} {f : NumeralFault}
    (h : read text = .error (.numeral f)) : HasLongNumeral f text.toList :=
  ((leaves_takeLines {} _ _).numeral f (map_eq_error_iff.1 h)).mono (foldCrLf_sublist _)

end GrammarBindings.Toml

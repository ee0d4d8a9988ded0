import GrammarBindings.Proofs.ScannedPieces

/-!
# Lines of tokens

The lexer counts the line ends in gaps. Those behind a backslash in a literal belong to its value,
and are not counted. So the line that it has counted, together with the line ends in the values of
the tokens that it passed, is the line of the place that it has come to.
-/

namespace GrammarBindings

open Text

/-- The lexer, counting from a line, passes tokens and comes to another line and to what is left of
the text. -/
inductive ComesTo : Nat → List Char → List Token → Nat → List Char → Prop where
  | start (line : Nat) (cs : List Char) : ComesTo line cs [] line cs
  | gap {line line' n : Nat} {c : Char} {cs rest left : List Char} {ts : List Token}
      (scanned : scan c cs = .gap n rest) (later : ComesTo (line + n) rest ts line' left) :
      ComesTo line (c :: cs) ts line' left
  | lexeme {line line' : Nat} {kind : TokenKind} {c : Char} {cs value rest left : List Char}
      {ts : List Token} (scanned : scan c cs = .lexeme kind value rest)
      (later : ComesTo line rest ts line' left) :
      ComesTo line (c :: cs) (⟨kind, String.ofList value, line⟩ :: ts) line' left

/-- The token is the first thing in the text. -/
def Token.IsAt (t : Token) (left : List Char) : Prop :=
  ∃ c cs value rest, left = c :: cs ∧ scan c cs = .lexeme t.kind value rest ∧
    t.value = String.ofList value

/-- The text begins with a literal or a block comment that is not closed. -/
def TextFault.IsAt (f : TextFault) (left : List Char) : Prop :=
  ∃ c cs, left = c :: cs ∧ scan c cs = .fault f

/-- The line ends in the values of tokens. -/
def lineEndsOf (ts : List Token) : Nat := (ts.flatMap fun t => t.value.toList).count '\n'

@[simp] theorem lineEndsOf_nil : lineEndsOf [] = 0 := rfl

@[simp] theorem lineEndsOf_cons (t : Token) (ts : List Token) :
    lineEndsOf (t :: ts) = t.value.toList.count '\n' + lineEndsOf ts := by
  rw [lineEndsOf, List.flatMap_cons, List.count_append, lineEndsOf]

theorem lineEndsOf_eq_zero_iff {ts : List Token} :
    lineEndsOf ts = 0 ↔ ∀ t ∈ ts, '\n' ∉ t.value.toList := by
  rw [lineEndsOf, List.count_eq_zero, List.mem_flatMap]
  simp

section Scanning

variable {c mark : Char} {cs body slice value rest : List Char} {kind : TokenKind}

/-- Between its marks a literal has the line ends of its value. -/
theorem Unescapes.count_lineEnd (hmark : mark ≠ '\n') (h : Unescapes mark body value) :
    (mark :: (body ++ [mark])).count '\n' = value.count '\n' := by
  rw [List.count_cons_of_ne hmark, List.count_append, List.count_singleton,
    if_neg (by simpa using hmark), Nat.add_zero]
  induction h with
  | nil => rfl
  | escaped c _ ih => simp [List.count_cons, ih]
  | plain _ _ ih => rw [List.count_cons, List.count_cons, ih]

theorem Lexeme.count_lineEnd (h : Lexeme kind value slice rest) :
    slice.count '\n' = value.count '\n' := by
  cases h with
  | literal h rest => exact h.count_lineEnd (by decide)
  | character h rest => exact h.count_lineEnd (by decide)
  | _ => rfl

/-- The line ends that are counted for a gap, or belong to the value of a lexeme. -/
def Scan.lineEnds : Scan → Nat
  | gap n _ => n
  | lexeme _ value _ => value.count '\n'
  | fault _ => 0

/-- What is read off the front of a text has the line ends that are counted for it, or that belong
to its value. -/
theorem exists_taken_of_scan {s : Scan} (hs : scan c cs = s) (h : s.rest? = some rest) :
    ∃ taken, c :: cs = taken ++ rest ∧ taken.count '\n' = s.lineEnds := by
  have hfinds : s.Finds (c :: cs) := hs ▸ finds_scan c cs
  cases s with
  | gap n rest' =>
    cases h
    obtain ⟨piece, htext, -, hn⟩ := hfinds
    exact ⟨piece, htext, hn.symm⟩
  | lexeme kind value rest' =>
    cases h
    obtain ⟨slice, htext, hslice⟩ := hfinds
    exact ⟨slice, htext, hslice.count_lineEnd⟩
  | fault f => cases h

end Scanning

section Runs

variable {line line' : Nat} {cs left : List Char} {ts : List Token}

/-- The lexing of a text begins with the tokens that are passed. -/
theorem ComesTo.tokenizeFrom_eq (h : ComesTo line cs ts line' left) :
    tokenizeFrom line cs = (tokenizeFrom line' left).prepend ts := by
  induction h with
  | start => rfl
  | gap hscan _ ih => rw [tokenizeFrom_gap hscan, ih]
  | lexeme hscan _ ih =>
    rw [tokenizeFrom_lexeme hscan, ih, Lexing.cons_eq_prepend, Lexing.prepend_prepend]
    rfl

/-- The line that is counted falls behind by the line ends in the values of the tokens. -/
theorem ComesTo.exists_front (h : ComesTo line cs ts line' left) :
    ∃ front, cs = front ++ left ∧ line' + lineEndsOf ts = line + front.count '\n' := by
  induction h with
  | start line cs => exact ⟨[], rfl, rfl⟩
  | gap hscan _ ih =>
    obtain ⟨front, rfl, hline⟩ := ih
    obtain ⟨taken, htaken, hcount⟩ := exists_taken_of_scan hscan rfl
    refine ⟨taken ++ front, by rw [htaken, List.append_assoc], ?_⟩
    rw [hline, List.count_append, hcount, Scan.lineEnds, Nat.add_assoc]
  | lexeme hscan _ ih =>
    obtain ⟨front, rfl, hline⟩ := ih
    obtain ⟨taken, htaken, hcount⟩ := exists_taken_of_scan hscan rfl
    refine ⟨taken ++ front, by rw [htaken, List.append_assoc], ?_⟩
    rw [lineEndsOf_cons, List.count_append, hcount, Scan.lineEnds, String.toList_ofList]
    omega

/-- Each token is come to behind those in front of it, and it carries the line counted there. -/
theorem exists_comesTo_of_tokens {earlier later : List Token} {t : Token}
    (h : (tokenizeFrom line cs).tokens = earlier ++ t :: later) :
    ∃ left, ComesTo line cs earlier t.line left ∧ t.IsAt left := by
  fun_induction tokenizeFrom line cs generalizing earlier with
  | case1 line => simp at h
  | case2 line c cs n rest hscan ih =>
    obtain ⟨left, hcomes, ht⟩ := ih h
    exact ⟨left, .gap hscan hcomes, ht⟩
  | case3 line c cs kind value rest hscan ih =>
    rw [Lexing.tokens_cons] at h
    cases earlier with
    | nil =>
      obtain ⟨rfl, -⟩ := List.cons.inj h
      exact ⟨c :: cs, .start _ _, c, cs, value, rest, rfl, hscan, rfl⟩
    | cons s earlier =>
      obtain ⟨rfl, hlater⟩ := List.cons.inj h
      obtain ⟨left, hcomes, ht⟩ := ih hlater
      exact ⟨left, .lexeme hscan hcomes, ht⟩
  | case4 => simp at h

/-- Behind all tokens comes the end of the text, or what is not closed. -/
theorem exists_comesTo (line : Nat) (cs : List Char) :
    ∃ line' left, ComesTo line cs (tokenizeFrom line cs).tokens line' left ∧
      ((tokenizeFrom line cs).fault? = none ∧ left = [] ∨
        ∃ f, (tokenizeFrom line cs).fault? = some (f, line') ∧ f.IsAt left) := by
  fun_induction tokenizeFrom line cs with
  | case1 line => exact ⟨line, [], .start _ _, .inl ⟨rfl, rfl⟩⟩
  | case2 line c cs k rest hscan ih =>
    obtain ⟨line', left, hcomes, hleft⟩ := ih
    exact ⟨line', left, .gap hscan hcomes, hleft⟩
  | case3 line c cs kind value rest hscan ih =>
    obtain ⟨line', left, hcomes, hleft⟩ := ih
    exact ⟨line', left, .lexeme hscan hcomes, hleft⟩
  | case4 line c cs f hscan =>
    exact ⟨line, c :: cs, .start _ _, .inr ⟨f, rfl, c, cs, rfl, hscan⟩⟩

theorem exists_comesTo_of_fault {f : TextFault} {n : Nat}
    (h : (tokenizeFrom line cs).fault? = some (f, n)) :
    ∃ left, ComesTo line cs (tokenizeFrom line cs).tokens n left ∧ f.IsAt left := by
  obtain ⟨line', left, hcomes, ⟨hnone, -⟩ | ⟨g, hsome, hg⟩⟩ := exists_comesTo line cs
  · cases hnone.symm.trans h
  · cases hsome.symm.trans h
    exact ⟨left, hcomes, hg⟩

theorem exists_comesTo_end (h : (tokenizeFrom line cs).fault? = none) :
    ∃ line', ComesTo line cs (tokenizeFrom line cs).tokens line' [] := by
  obtain ⟨line', left, hcomes, ⟨-, rfl⟩ | ⟨f, hsome, -⟩⟩ := exists_comesTo line cs
  · exact ⟨line', hcomes⟩
  · cases hsome.symm.trans h

end Runs

end GrammarBindings

import GrammarBindings.Grammar.Reading
import GrammarBindings.Proofs.Encodings

/-!
# Line ends

The lines of a file may end in a line feed, in a carriage return or in both, each in its own way:
the grammar that is read is that of the text with line feeds. Bytes that encode no text are refused
before anything else is looked at.
-/

namespace GrammarBindings

open Text

/-- A text and what is written for it: each line feed as one of three line ends. A carriage return
alone is not written in front of a line feed, with which it would be one line end. -/
inductive WrittenWithEnds : List Char → List Char → Prop where
  | nil : WrittenWithEnds [] []
  | char {c : Char} {cs ds : List Char} (inner : c ≠ '\n') (later : WrittenWithEnds cs ds) :
      WrittenWithEnds (c :: cs) (c :: ds)
  | lineFeed {cs ds : List Char} (later : WrittenWithEnds cs ds) :
      WrittenWithEnds ('\n' :: cs) ('\n' :: ds)
  | both {cs ds : List Char} (later : WrittenWithEnds cs ds) :
      WrittenWithEnds ('\n' :: cs) ('\r' :: '\n' :: ds)
  | carriageReturn {cs ds : List Char} (apart : ds.head? ≠ some '\n')
      (later : WrittenWithEnds cs ds) : WrittenWithEnds ('\n' :: cs) ('\r' :: ds)

variable {c : Char} {cs ds : List Char}

theorem unifyLineEnds_cons_of_ne (h : c ≠ '\r') (cs : List Char) :
    unifyLineEnds (c :: cs) = c :: unifyLineEnds cs := by
  rw [unifyLineEnds]
  all_goals simp [h]

theorem unifyLineEnds_carriageReturn (h : ds.head? ≠ some '\n') :
    unifyLineEnds ('\r' :: ds) = '\n' :: unifyLineEnds ds := by
  cases ds with
  | nil => rfl
  | cons d ds =>
    have hd : d ≠ '\n' := by simpa using h
    rw [unifyLineEnds]
    simp [hd]

theorem WrittenWithEnds.unifyLineEnds_eq (h : WrittenWithEnds cs ds) (hcs : '\r' ∉ cs) :
    unifyLineEnds ds = cs := by
  induction h with
  | nil => rfl
  | @char c cs ds inner later ih =>
    rw [List.mem_cons, not_or] at hcs
    rw [unifyLineEnds_cons_of_ne (Ne.symm hcs.1), ih hcs.2]
  | lineFeed later ih =>
    rw [unifyLineEnds_cons_of_ne (by decide), ih (List.not_mem_of_not_mem_cons hcs)]
  | both later ih => rw [unifyLineEnds, ih (List.not_mem_of_not_mem_cons hcs)]
  | carriageReturn apart later ih =>
    rw [unifyLineEnds_carriageReturn apart, ih (List.not_mem_of_not_mem_cons hcs)]

namespace Reading

/-- A file is read as the text whose lines it has, whichever way they end. A file that is no text is
refused at the end of its longest part that is one, without a line, and nothing of it is read. -/
theorem ofBytes_lineEnds_and_invalid (path : String) (bytes : ByteArray) :
    (∀ text written : String, '\r' ∉ text.toList →
      WrittenWithEnds text.toList written.toList →
      Encodes bytes.data.toList written.toList → ofBytes path bytes = ofText text) ∧
    (¬ IsEncoding bytes.data.toList →
      ∃ offset, IsGreatest (encodedLengths bytes.data.toList) offset ∧
        ofBytes path bytes = ⟨[], .error (.encoding path offset)⟩ ∧
        (ReadFailure.encoding path offset).line? = none) := by
  constructor
  · intro text written htext hwritten hbytes
    rw [ofBytes, decode_of_encodes hbytes]
    simp only [String.toList_ofList]
    rw [hwritten.unifyLineEnds_eq htext, String.ofList_toList]
  · intro hinvalid
    obtain ⟨offset, hgreatest, hdecode⟩ := exists_decode_eq_error hinvalid
    refine ⟨offset, hgreatest, ?_, rfl⟩
    rw [ofBytes, hdecode]

/-- The first line end is a carriage return, the second has both characters and the third is a line
feed; and a surrogate is no character. -/
theorem ofBytes_lineEnds_and_invalid_surrogate :
    let text := "\n\n\né"
    let written := "\r\r\n\né"
    let surrogate : ByteArray := ⟨#[0x41, 0xC3, 0xA9, 0xED, 0xA0, 0x80]⟩
    '\r' ∉ text.toList ∧ WrittenWithEnds text.toList written.toList ∧
      Encodes written.toUTF8.data.toList written.toList ∧
      ofBytes "g.cf" written.toUTF8 = ofText text ∧
      (ofText text).result = .error (.text .endOfStatement 4) ∧
      ¬ IsEncoding surrogate.data.toList ∧
      IsGreatest (encodedLengths surrogate.data.toList) 3 ∧
      ofBytes "g.cf" surrogate = ⟨[], .error (.encoding "g.cf" 3)⟩ := by
  intro text written surrogate
  have htext : '\r' ∉ text.toList := by decide
  have hwritten : WrittenWithEnds text.toList written.toList := by
    have hchars : text.toList = ['\n', '\n', '\n', 'é'] := by decide
    have hends : written.toList = ['\r', '\r', '\n', '\n', 'é'] := by decide
    rw [hchars, hends]
    exact .carriageReturn (by decide) (.both (.lineFeed (.char (by decide) .nil)))
  have hbytes := encodes_toUTF8 written
  have hread := (ofBytes_lineEnds_and_invalid "g.cf" _).1 text written htext hwritten hbytes
  have hdecode : decode surrogate = .error 3 := by decide +kernel
  have hinvalid : ¬ IsEncoding surrogate.data.toList := by
    rintro ⟨cs, hcs⟩
    cases hdecode.symm.trans (decode_of_encodes hcs)
  obtain ⟨offset, hgreatest, hrefused, -⟩ :=
    (ofBytes_lineEnds_and_invalid "g.cf" surrogate).2 hinvalid
  have hthree : ofBytes "g.cf" surrogate = ⟨[], .error (.encoding "g.cf" 3)⟩ := by
    rw [ofBytes, hdecode]
  rw [hrefused] at hthree
  cases hthree
  exact ⟨htext, hwritten, hbytes, hread, by decide +kernel, hinvalid, hgreatest, hrefused⟩

end Reading
end GrammarBindings

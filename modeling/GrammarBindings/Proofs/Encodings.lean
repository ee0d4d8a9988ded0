import GrammarBindings.Text.Utf8
import Mathlib.Data.List.Basic
import Mathlib.Order.Bounds.Defs

/-!
# Encodings of texts

The bytes of a character spell its code in base 64, with a first byte that says how many there are,
and as few of them as the code needs. Characters have no surrogates and nothing past the last code
point among them, so neither is encoded. Bytes are decoded from the front up to the place behind
which no character is encoded: this is the end, or an error at its offset.
-/

namespace GrammarBindings.Text

/-- The number that the bytes of one sequence spell. The first byte begins with as many ones as there
are bytes, if there are several, and each byte behind it has six digits of the number. -/
inductive Spells : List UInt8 → Nat → Prop where
  | one {x : Nat} (hx : x < 0x80) : Spells [.ofNat x] x
  | two {x y : Nat} (hx : x < 0x20) (hy : y < 0x40) :
      Spells [.ofNat (x + 0xC0), .ofNat (y + 0x80)] (0x40 * x + y)
  | three {x y z : Nat} (hx : x < 0x10) (hy : y < 0x40) (hz : z < 0x40) :
      Spells [.ofNat (x + 0xE0), .ofNat (y + 0x80), .ofNat (z + 0x80)]
        (0x1000 * x + 0x40 * y + z)
  | four {x y z w : Nat} (hx : x < 0x08) (hy : y < 0x40) (hz : z < 0x40) (hw : w < 0x40) :
      Spells [.ofNat (x + 0xF0), .ofNat (y + 0x80), .ofNat (z + 0x80), .ofNat (w + 0x80)]
        (0x40000 * x + 0x1000 * y + 0x40 * z + w)

/-- The least number that needs so many bytes. -/
def leastSpelled : Nat → Nat
  | 2 => 0x80
  | 3 => 0x800
  | 4 => 0x10000
  | _ => 0

/-- The bytes spell the code of the character, and no fewer bytes would. -/
structure EncodesChar (bs : List UInt8) (c : Char) : Prop where
  spells : Spells bs c.toNat
  shortest : leastSpelled bs.length ≤ c.toNat

inductive Encodes : List UInt8 → List Char → Prop where
  | nil : Encodes [] []
  | cons {bs rest : List UInt8} {c : Char} {cs : List Char} (first : EncodesChar bs c)
      (others : Encodes rest cs) : Encodes (bs ++ rest) (c :: cs)

/-- The bytes are the encoding of some text. -/
def IsEncoding (bs : List UInt8) : Prop := ∃ cs, Encodes bs cs

/-- No character is encoded at the front. -/
def EncodesNone (bs : List UInt8) : Prop := ∀ front behind c, bs = front ++ behind →
  ¬ EncodesChar front c

variable {bs front front' rest behind behind' : List UInt8} {c d : Char} {cs ds : List Char}
  {bytes : ByteArray} {i : Nat}

theorem EncodesChar.eq_utf8EncodeChar (h : EncodesChar bs c) : bs = String.utf8EncodeChar c := by
  obtain ⟨hspells, hleast⟩ := h
  generalize hv : c.toNat = v at hspells hleast
  have hval : c.val.toNat = v := hv
  rw [String.utf8EncodeChar, hval]
  cases hspells with
  | one hx => rw [if_pos (by omega)]
  | @two x y hx hy =>
    simp only [leastSpelled, List.length] at hleast
    have hx' : (0x40 * x + y) / 64 % 0x20 + 0xc0 = x + 0xC0 := by omega
    have hy' : (0x40 * x + y) % 0x40 + 0x80 = y + 0x80 := by omega
    rw [if_neg (by omega), if_pos (by omega), hx', hy']
  | @three x y z hx hy hz =>
    simp only [leastSpelled, List.length] at hleast
    have hx' : (0x1000 * x + 0x40 * y + z) / 4096 % 0x10 + 0xe0 = x + 0xE0 := by omega
    have hy' : (0x1000 * x + 0x40 * y + z) / 64 % 0x40 + 0x80 = y + 0x80 := by omega
    have hz' : (0x1000 * x + 0x40 * y + z) % 0x40 + 0x80 = z + 0x80 := by omega
    rw [if_neg (by omega), if_neg (by omega), if_pos (by omega), hx', hy', hz']
  | @four x y z w hx hy hz hw =>
    simp only [leastSpelled, List.length] at hleast
    have hx' : (0x40000 * x + 0x1000 * y + 0x40 * z + w) / 262144 % 0x08 + 0xf0 = x + 0xF0 := by
      omega
    have hy' : (0x40000 * x + 0x1000 * y + 0x40 * z + w) / 4096 % 0x40 + 0x80 = y + 0x80 := by
      omega
    have hz' : (0x40000 * x + 0x1000 * y + 0x40 * z + w) / 64 % 0x40 + 0x80 = z + 0x80 := by omega
    have hw' : (0x40000 * x + 0x1000 * y + 0x40 * z + w) % 0x40 + 0x80 = w + 0x80 := by omega
    rw [if_neg (by omega), if_neg (by omega), if_neg (by omega), hx', hy', hz', hw']

theorem encodesChar_utf8EncodeChar (c : Char) : EncodesChar (String.utf8EncodeChar c) c := by
  have hlt : c.toNat < 0x110000 := by
    rcases c.valid with h | ⟨-, h⟩
    · exact Nat.lt_trans h (by decide)
    · exact h
  suffices h : Spells (String.utf8EncodeChar c) c.toNat ∧
      leastSpelled (String.utf8EncodeChar c).length ≤ c.toNat from ⟨h.1, h.2⟩
  generalize hv : c.toNat = v at hlt
  have hval : c.val.toNat = v := hv
  rw [String.utf8EncodeChar, hval]
  split
  · exact ⟨.one (by omega), Nat.zero_le v⟩
  split
  · have h := Spells.two (x := v / 64 % 0x20) (y := v % 0x40) (by omega) (by omega)
    rw [show 0x40 * (v / 64 % 0x20) + v % 0x40 = v by omega] at h
    exact ⟨h, by simp only [leastSpelled, List.length]; omega⟩
  split
  · have h := Spells.three (x := v / 4096 % 0x10) (y := v / 64 % 0x40) (z := v % 0x40)
      (by omega) (by omega) (by omega)
    rw [show 0x1000 * (v / 4096 % 0x10) + 0x40 * (v / 64 % 0x40) + v % 0x40 = v by omega] at h
    exact ⟨h, by simp only [leastSpelled, List.length]; omega⟩
  · have h := Spells.four (x := v / 262144 % 0x08) (y := v / 4096 % 0x40) (z := v / 64 % 0x40)
      (w := v % 0x40) (by omega) (by omega) (by omega) (by omega)
    rw [show 0x40000 * (v / 262144 % 0x08) + 0x1000 * (v / 4096 % 0x40) +
      0x40 * (v / 64 % 0x40) + v % 0x40 = v by omega] at h
    exact ⟨h, by simp only [leastSpelled, List.length]; omega⟩

/-- Every text has an encoding. -/
theorem encodes_toUTF8 (s : String) : Encodes s.toUTF8.data.toList s.toList := by
  rw [String.toUTF8, ← String.utf8Encode_toList, List.utf8Encode, List.toList_data_toByteArray]
  induction s.toList with
  | nil => exact .nil
  | cons c cs ih => exact .cons (encodesChar_utf8EncodeChar c) ih

theorem toList_data_extract_size (bytes : ByteArray) (i : Nat) :
    (bytes.extract i bytes.size).data.toList = bytes.data.toList.drop i := by
  have hlength : (bytes.data.toList.drop i).length ≤ bytes.size - i := by
    rw [List.length_drop, Array.length_toList]
    exact Nat.le_refl _
  rw [ByteArray.data_extract, Array.toList_extract, List.extract_eq_take_drop,
    List.take_of_length_le hlength]

theorem ext_toList_data {b b' : ByteArray} (h : b.data.toList = b'.data.toList) : b = b' :=
  ByteArray.ext (Array.toList_inj.1 h)

/-- A character is read exactly where its encoding stands. -/
theorem utf8DecodeChar?_eq_some_iff :
    bytes.utf8DecodeChar? i = some c ↔
      ∃ front behind, bytes.data.toList.drop i = front ++ behind ∧ EncodesChar front c := by
  rw [ByteArray.utf8DecodeChar?_eq_utf8DecodeChar?_extract]
  constructor
  · intro h
    obtain ⟨behind, hbytes⟩ := ByteArray.exists_of_utf8DecodeChar?_eq_some h
    refine ⟨_, behind.data.toList, ?_, encodesChar_utf8EncodeChar c⟩
    rw [← toList_data_extract_size, hbytes, ByteArray.toList_data_append,
      List.toList_data_toByteArray]
  · rintro ⟨front, behind, hdrop, hc⟩
    have hbytes : bytes.extract i bytes.size =
        (String.utf8EncodeChar c).toByteArray ++ behind.toByteArray := by
      refine ext_toList_data ?_
      rw [toList_data_extract_size, hdrop, hc.eq_utf8EncodeChar, ByteArray.toList_data_append,
        List.toList_data_toByteArray, List.toList_data_toByteArray]
    rw [hbytes, ByteArray.utf8DecodeChar?_utf8EncodeChar_append]

/-- No encoding of a character begins with that of another. -/
theorem EncodesChar.eq_of_append (h : EncodesChar front c) (h' : EncodesChar front' d)
    (heq : front ++ behind = front' ++ behind') : front = front' ∧ c = d ∧ behind = behind' := by
  have hread : ∀ {front behind c}, EncodesChar front c →
      (front ++ behind).toByteArray.utf8DecodeChar? 0 = some c := fun {front behind c} h =>
    utf8DecodeChar?_eq_some_iff.2 ⟨front, behind, by simp, h⟩
  have hc : c = d := by
    rw [← Option.some_inj, ← hread h, heq, hread h']
  subst hc
  obtain rfl := h.eq_utf8EncodeChar.trans h'.eq_utf8EncodeChar.symm
  exact ⟨rfl, rfl, List.append_cancel_left heq⟩

theorem EncodesChar.length_eq (h : EncodesChar front c) : front.length = c.utf8Size := by
  rw [h.eq_utf8EncodeChar, String.length_utf8EncodeChar]

/-- Bytes are the encoding of a text and something that begins with no character. -/
theorem exists_encoded_append (bs : List UInt8) :
    ∃ front cs behind, bs = front ++ behind ∧ Encodes front cs ∧ EncodesNone behind := by
  induction hn : bs.length using Nat.strongRecOn generalizing bs with
  | _ n ih =>
    by_cases h : EncodesNone bs
    · exact ⟨[], [], bs, rfl, .nil, h⟩
    · simp only [EncodesNone, not_forall, not_not] at h
      obtain ⟨first, others, c, rfl, hc⟩ := h
      have hshorter : others.length < n := by
        have hpos := c.utf8Size_pos
        rw [← hn, List.length_append, hc.length_eq]
        omega
      obtain ⟨front, cs, behind, rfl, hfront, hbehind⟩ := ih _ hshorter others rfl
      exact ⟨first ++ front, c :: cs, behind, (List.append_assoc ..).symm, .cons hc hfront,
        hbehind⟩

/-- Nothing goes beyond the division. -/
theorem Encodes.length_le (h : Encodes front cs) (hbehind : EncodesNone behind)
    (h' : Encodes front' ds)
    (heq : front ++ behind = front' ++ behind') :
    front'.length ≤ front.length := by
  induction h generalizing front' ds with
  | nil =>
    cases h' with
    | nil => exact Nat.le_refl _
    | cons first others =>
      exact absurd first (hbehind _ _ _ (heq.trans (List.append_assoc ..)))
  | cons first others ih =>
    cases h' with
    | nil => exact Nat.zero_le _
    | cons first' others' =>
      rw [List.append_assoc, List.append_assoc] at heq
      obtain ⟨rfl, rfl, heq⟩ := first.eq_of_append first' heq
      rw [List.length_append, List.length_append]
      exact Nat.add_le_add_left (ih others' heq) _

theorem decodeFrom_of_encodesNone (h : EncodesNone (bytes.data.toList.drop i)) :
    decodeFrom bytes i = if i < bytes.size then .error i else .ok [] := by
  have hnone : bytes.utf8DecodeChar? i = none := by
    rw [Option.eq_none_iff_forall_ne_some]
    intro c hc
    obtain ⟨front, behind, hdrop, hfront⟩ := utf8DecodeChar?_eq_some_iff.1 hc
    exact h front behind c hdrop hfront
  rw [decodeFrom, hnone]

/-- The encoding of a text is decoded as this text and what is read behind it. -/
theorem decodeFrom_of_encodes (h : Encodes front cs)
    (hdrop : bytes.data.toList.drop i = front ++ behind) :
    decodeFrom bytes i = (decodeFrom bytes (i + front.length)).map (cs ++ ·) := by
  induction h generalizing i with
  | nil => cases decodeFrom bytes i <;> simp [Except.map]
  | @cons bs rest c cs first others ih =>
    have hread : bytes.utf8DecodeChar? i = some c :=
      utf8DecodeChar?_eq_some_iff.2 ⟨bs, rest ++ behind, by rw [hdrop, List.append_assoc], first⟩
    have hi : i < bytes.size := ByteArray.lt_size_of_isSome_utf8DecodeChar? (by rw [hread]; rfl)
    have hothers : bytes.data.toList.drop (i + bs.length) = rest ++ behind := by
      rw [← List.drop_drop, hdrop, List.append_assoc, List.drop_left]
    rw [decodeFrom, if_pos hi, hread, List.length_append, ← Nat.add_assoc]
    simp only
    rw [← first.length_eq, ih hothers]
    cases decodeFrom bytes (i + bs.length + rest.length) <;> rfl

/-- Decoding comes to the division, where the bytes end or the error is. -/
theorem decodeFrom_of_division (hbytes : bytes.data.toList = front ++ behind)
    (hfront : Encodes front cs) (hbehind : EncodesNone behind) :
    decodeFrom bytes 0 = if behind = [] then .ok cs else .error front.length := by
  have hsize : bytes.size = front.length + behind.length := by
    rw [ByteArray.size, ← Array.length_toList, hbytes, List.length_append]
  have hstop : EncodesNone (bytes.data.toList.drop front.length) := by
    rwa [hbytes, List.drop_left]
  rw [decodeFrom_of_encodes hfront (by rw [List.drop_zero, hbytes]), Nat.zero_add,
    decodeFrom_of_encodesNone hstop, hsize]
  cases behind with
  | nil => simp [Except.map]
  | cons b behind => simp [Except.map]

/-- The prefixes of a list of bytes that are encodings, by their lengths. -/
def encodedLengths (bs : List UInt8) : Set Nat :=
  {k | k ≤ bs.length ∧ IsEncoding (bs.take k)}

theorem decode_of_encodes (h : Encodes bytes.data.toList cs) :
    decode bytes = .ok (String.ofList cs) := by
  have hnone : EncodesNone [] := by
    intro front behind c hnil hc
    have hpos := c.utf8Size_pos
    have hlength := hc.length_eq
    rw [List.append_eq_nil_iff.1 hnil.symm |>.1] at hlength
    exact absurd hlength (Nat.ne_of_lt hpos)
  rw [decode, decodeFrom_of_division (List.append_nil _).symm h hnone, if_pos rfl]
  rfl

/-- Bytes that are no encoding are refused at the end of their longest part that is one. -/
theorem exists_decode_eq_error (h : ¬ IsEncoding bytes.data.toList) :
    ∃ offset, IsGreatest (encodedLengths bytes.data.toList) offset ∧
      decode bytes = .error offset := by
  obtain ⟨front, cs, behind, hbytes, hfront, hbehind⟩ := exists_encoded_append bytes.data.toList
  have hne : behind ≠ [] := by
    rintro rfl
    rw [List.append_nil] at hbytes
    exact h ⟨cs, hbytes ▸ hfront⟩
  refine ⟨front.length, ⟨⟨?_, ?_⟩, ?_⟩, ?_⟩
  · rw [hbytes, List.length_append]
    exact Nat.le_add_right _ _
  · rw [hbytes, List.take_left]
    exact ⟨cs, hfront⟩
  · rintro k ⟨hk, ds, hds⟩
    have hle := hfront.length_le hbehind hds (hbytes.symm.trans (List.take_append_drop k _).symm)
    rwa [List.length_take_of_le hk] at hle
  · rw [decode, decodeFrom_of_division hbytes hfront hbehind, if_neg hne]
    rfl

end GrammarBindings.Text

import ChainWallet.Text.Percent

/-!
# Percent-encoded spellings

Whoever writes a text into an address chooses which of its characters to percent-encode. Whatever is chosen, the
reader gets the text back.

* **`Spells`** — a spelling of a text: each character as its bytes, or as itself unless it is a percent sign;
  `spells_percentEncode` is the one in which a class of characters is encoded.
* **`foldl_byte_utf8EncodeChar`** — the bytes of a character are read as that character.
* **`percentDecode_of_spells`** — so a spelling is read as the text.
-/

namespace ChainWallet.Text

/-! ### Spellings -/

/-- A text as it may stand in an address. -/
inductive Spells : (written text : List Char) → Prop where
  | nil : Spells [] []
  | plain {c : Char} {written text : List Char} (h : c ≠ '%') (rest : Spells written text) :
      Spells (c :: written) (c :: text)
  | encoded (c : Char) {written text : List Char} (rest : Spells written text) :
      Spells ((String.utf8EncodeChar c).flatMap encodedByte ++ written) (c :: text)

/-- To encode a class of characters is to spell a text, if the percent sign is one of them. -/
theorem spells_percentEncode {encoded : Char → Bool} (percent : encoded '%' = true) (text : List Char) :
    Spells (percentEncode encoded text) text := by
  induction text with
  | nil => exact .nil
  | cons c rest ih =>
    rw [percentEncode, List.flatMap_cons]
    split
    · exact .encoded c ih
    · next plain =>
      refine .plain ?_ ih
      rintro rfl
      exact plain percent

/-! ### Bytes -/

namespace ByteReader

/-- A reader that has read some characters and no part of another one. -/
def between (done : List Char) : ByteReader := ⟨done, 0, 0, 0⟩

variable {done : List Char} {b value pending seen : Nat}

/-- Between two characters a byte begins the next one. -/
theorem byte_between (done : List Char) (b : Nat) : (between done).byte b = (between done).lead b := by
  simp [byte, accepts, between]

/-- A byte of the lower half is a character. -/
theorem byte_of_ascii (h : b < 0x80) : (between done).byte b = between (Char.ofNat b :: done) := by
  rw [byte_between]
  simp [lead, h, between, char, settle]

/-- The first of two bytes leaves one more to be read. -/
theorem byte_of_two (h : 2 ≤ value) (h' : value < 32) :
    (between done).byte (value + 0xC0) = ⟨done, value, 1, 1⟩ := by
  rw [byte_between, lead, if_neg (by omega), if_pos (by omega), Nat.add_sub_cancel]
  rfl

theorem byte_of_three (h : value < 16) : (between done).byte (value + 0xE0) = ⟨done, value, 2, 1⟩ := by
  rw [byte_between, lead, if_neg (by omega), if_neg (by omega), if_pos (by omega), Nat.add_sub_cancel]
  rfl

theorem byte_of_four (h : value < 5) : (between done).byte (value + 0xF0) = ⟨done, value, 3, 1⟩ := by
  -- The ranges of first bytes are told apart one after the other.
  rw [byte_between, lead, if_neg (by omega), if_neg (by omega), if_neg (by omega), if_pos (by omega),
    Nat.add_sub_cancel]
  rfl

/-- A byte that carries a character on, but does not end it. -/
theorem byte_of_accepts (h : accepts ⟨done, value, pending + 2, seen⟩ (b + 0x80) = true) :
    byte ⟨done, value, pending + 2, seen⟩ (b + 0x80) = ⟨done, 64 * value + b, pending + 1, seen + 1⟩ := by
  rw [byte, if_pos h, Nat.add_sub_cancel]
  exact if_neg (by simp)

/-- The last byte of a character ends it. -/
theorem byte_of_accepts_last (h : accepts ⟨done, value, 1, seen⟩ (b + 0x80) = true) :
    byte ⟨done, value, 1, seen⟩ (b + 0x80) = between (Char.ofNat (64 * value + b) :: done) := by
  rw [byte, if_pos h, Nat.add_sub_cancel]
  exact if_pos rfl

/-- Each byte of a character is a byte. -/
theorem toNat_ofNat_byte {n : Nat} (h : n < 256) : (UInt8.ofNat n).toNat = n := by
  rw [UInt8.toNat_ofNat']
  omega

/-- The bytes of a character are read as the character. -/
theorem foldl_byte_utf8EncodeChar (done : List Char) (c : Char) :
    (String.utf8EncodeChar c).foldl (fun r b => r.byte b.toNat) (between done) = between (c :: done) := by
  -- Characters leave out the halves of surrogate pairs, and the second byte of three tells these apart.
  have hvalid : c.toNat < 0xD800 ∨ 0xDFFF < c.toNat ∧ c.toNat < 0x110000 := c.valid
  have hval : c.val.toNat = c.toNat := rfl
  have hread : ∀ n, n = c.toNat → between (Char.ofNat n :: done) = between (c :: done) := by
    rintro _ rfl
    rw [Char.ofNat_toNat]
  unfold String.utf8EncodeChar
  simp only [hval]
  -- The number of bytes is told by the number of the character.
  split
  · next one =>
    simp only [List.foldl_cons, List.foldl_nil, toNat_ofNat_byte (show c.toNat < 256 by omega)]
    rw [byte_of_ascii (by omega), Char.ofNat_toNat]
  split
  · next one two =>
    simp only [List.foldl_cons, List.foldl_nil, toNat_ofNat_byte (show c.toNat / 64 % 32 + 192 < 256 by omega),
      toNat_ofNat_byte (show c.toNat % 64 + 128 < 256 by omega)]
    rw [byte_of_two (by omega) (by omega), byte_of_accepts_last]
    · exact hread _ (by omega)
    · simp [accepts, continues]
      omega
  split
  · next one two three =>
    simp only [List.foldl_cons, List.foldl_nil,
      toNat_ofNat_byte (show c.toNat / 4096 % 16 + 224 < 256 by omega),
      toNat_ofNat_byte (show c.toNat / 64 % 64 + 128 < 256 by omega),
      toNat_ofNat_byte (show c.toNat % 64 + 128 < 256 by omega)]
    rw [byte_of_three (by omega), byte_of_accepts, byte_of_accepts_last]
    · exact hread _ (by omega)
    · simp [accepts]
      omega
    · simp [accepts, continues]
      omega
  · next one two three =>
    simp only [List.foldl_cons, List.foldl_nil,
      toNat_ofNat_byte (show c.toNat / 262144 % 8 + 240 < 256 by omega),
      toNat_ofNat_byte (show c.toNat / 4096 % 64 + 128 < 256 by omega),
      toNat_ofNat_byte (show c.toNat / 64 % 64 + 128 < 256 by omega),
      toNat_ofNat_byte (show c.toNat % 64 + 128 < 256 by omega)]
    rw [byte_of_four (by omega), byte_of_accepts, byte_of_accepts, byte_of_accepts_last]
    · exact hread _ (by omega)
    · simp [accepts]
      omega
    · simp [accepts]
      omega
    · simp [accepts, continues]
      omega

end ByteReader

/-! ### Reading -/

theorem hexDigitValue?_digitChar {n : Nat} (h : n < 16) :
    hexDigitValue? (Nat.digitChar n).toUpper = some n := by
  revert n
  decide

/-- An encoded byte is read as that byte. -/
theorem decodeFrom_encodedByte (r : ByteReader) (b : UInt8) (rest : List Char) :
    decodeFrom r (encodedByte b ++ rest) = decodeFrom (r.byte b.toNat) rest := by
  have hb : b.toNat < 256 := b.toNat_lt
  have hdigits : encodedByte b
      = ['%', (Nat.digitChar (b.toNat / 16 % 16)).toUpper, (Nat.digitChar (b.toNat % 16)).toUpper] := rfl
  have hvalue : byteOfDigits? (Nat.digitChar (b.toNat / 16 % 16)).toUpper (Nat.digitChar (b.toNat % 16)).toUpper
      = some b.toNat := by
    rw [byteOfDigits?, hexDigitValue?_digitChar (by omega), hexDigitValue?_digitChar (by omega)]
    refine congrArg some ?_
    omega
  rw [hdigits]
  simp only [List.cons_append, List.nil_append]
  rw [decodeFrom, hvalue]

/-- Encoded bytes are read one after the other. -/
theorem decodeFrom_flatMap_encodedByte (bytes : List UInt8) (r : ByteReader) (rest : List Char) :
    decodeFrom r (bytes.flatMap encodedByte ++ rest)
      = decodeFrom (bytes.foldl (fun r b => r.byte b.toNat) r) rest := by
  induction bytes generalizing r with
  | nil => rfl
  | cons b bytes ih => rw [List.flatMap_cons, List.append_assoc, decodeFrom_encodedByte, ih, List.foldl_cons]

/-- A character other than the percent sign is read as itself. -/
theorem decodeFrom_plain {c : Char} (h : c ≠ '%') (r : ByteReader) (rest : List Char) :
    decodeFrom r (c :: rest) = decodeFrom (r.char c) rest := by
  rw [decodeFrom]
  rintro _ _ _ rfl
  exact absurd rfl h

/-- Reading a spelling goes on behind it with its text read. -/
theorem Spells.decodeFrom_append {written text : List Char} (h : Spells written text) (done rest : List Char) :
    decodeFrom (.between done) (written ++ rest) = decodeFrom (.between (text.reverse ++ done)) rest := by
  -- The induction is on the spelling, for whatever has been read before it.
  induction h generalizing done with
  | nil => rfl
  | @plain c written text hc _ ih =>
    have hchar : (ByteReader.between done).char c = .between (c :: done) := rfl
    rw [List.cons_append, decodeFrom_plain hc, hchar, ih, List.reverse_cons, List.append_assoc]
    rfl
  | @encoded c written text _ ih =>
    rw [List.append_assoc, decodeFrom_flatMap_encodedByte, ByteReader.foldl_byte_utf8EncodeChar, ih,
      List.reverse_cons, List.append_assoc]
    rfl

/-- Every spelling of a text is read as the text. -/
theorem percentDecode_of_spells {written text : List Char} (h : Spells written text) :
    percentDecode written = text := by
  have hread := h.decodeFrom_append [] []
  rw [List.append_nil, List.append_nil] at hread
  have hstart : ByteReader.start = .between [] := rfl
  rw [percentDecode, hstart, hread, decodeFrom]
  simp [ByteReader.text, ByteReader.settle, ByteReader.between]

end ChainWallet.Text

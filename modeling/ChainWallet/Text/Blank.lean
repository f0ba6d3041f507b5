/-!
# Blank characters and trimming

Texts reach the wallet from settings, from price feeds and from asset records, and all of them may
carry blanks around what they mean. Two classes of blank are in use.

* `isWhiteSpace` — the characters of the Unicode property *White_Space*; the readers of integers and
  of binary numbers trim these.
* `isBlank` — the same and the four information separators U+001C to U+001F; symbol lists and decimal
  texts trim these, and they part the words of a schedule. `isBlank_of_isWhiteSpace` says that the first
  class lies in the second.

Trimming is one function of the class, `trim`; what it leaves begins with no character of the class
(`head_dropWhile`).
-/

namespace ChainWallet.Text

/-- The characters of the Unicode property *White_Space*. -/
def isWhiteSpace (c : Char) : Bool :=
  let n := c.toNat
  (9 ≤ n && n ≤ 13) || n == 0x20 || n == 0x85 || n == 0xA0 || n == 0x1680
    || (0x2000 ≤ n && n ≤ 0x200A) || n == 0x2028 || n == 0x2029 || n == 0x202F
    || n == 0x205F || n == 0x3000

/-- White space, or one of the information separators U+001C to U+001F. -/
def isBlank (c : Char) : Bool :=
  isWhiteSpace c || (0x1C ≤ c.toNat && c.toNat ≤ 0x1F)

/-- Removes the characters of a class from both ends. -/
def trim (p : Char → Bool) (cs : List Char) : List Char :=
  ((cs.dropWhile p).reverse.dropWhile p).reverse

/-- The pieces of a text between the occurrences of a separator; there is always at least one. -/
def pieces (sep : Char) : List Char → List (List Char)
  | [] => [[]]
  | c :: rest =>
    if c = sep then [] :: pieces sep rest
    else match pieces sep rest with
      | [] => [[c]]
      | p :: ps => (c :: p) :: ps

/-- The words of a text: its longest stretches free of blanks. -/
def words (cs : List Char) : List (List Char) :=
  let step (c : Char) : List Char × List (List Char) → List Char × List (List Char)
    | (word, done) =>
      if isBlank c then ([], if word.isEmpty then done else word :: done) else (c :: word, done)
  let (word, done) := cs.foldr step ([], [])
  if word.isEmpty then done else word :: done

/-! ### Characterization -/

theorem isBlank_of_isWhiteSpace {c : Char} (h : isWhiteSpace c = true) : isBlank c = true := by
  simp [isBlank, h]

@[simp] theorem trim_nil (p : Char → Bool) : trim p [] = [] := rfl

/-- The list that begins after the leading class characters begins with no class character. -/
theorem head_dropWhile {p : Char → Bool} {cs : List Char} {c : Char} {rest : List Char}
    (h : cs.dropWhile p = c :: rest) : p c = false := by
  induction cs with
  | nil => simp at h
  | cons d ds ih =>
    by_cases hd : p d = true
    · rw [List.dropWhile_cons_of_pos hd] at h
      exact ih h
    · rw [List.dropWhile_cons_of_neg hd] at h
      cases h
      simpa using hd

theorem pieces_ne_nil (sep : Char) (cs : List Char) : pieces sep cs ≠ [] := by
  cases cs with
  | nil => simp [pieces]
  | cons c rest =>
    unfold pieces
    split
    · simp
    · split <;> simp

end ChainWallet.Text

namespace PlayerAnimation.Text

/-- The pieces of a text between the characters that satisfy `p`. A text without such a character is a
single piece, so there is one piece more than there are separators. -/
def pieces (p : Char → Bool) : List Char → List (List Char)
  | [] => [[]]
  | c :: cs =>
      if p c then [] :: pieces p cs
      else match pieces p cs with
        | [] => [[c]]
        | w :: ws => (c :: w) :: ws

/-- White space: the blanks and line breaks of every script, among them the no-break spaces, but not the
zero-width ones. -/
def isBlank (c : Char) : Bool :=
  let n := c.toNat
  (0x9 ≤ n && n ≤ 0xd) || n == 0x20 || n == 0x85 || n == 0xa0 || n == 0x1680 ||
    (0x2000 ≤ n && n ≤ 0x200a) || n == 0x2028 || n == 0x2029 || n == 0x202f || n == 0x205f ||
    n == 0x3000

def words (cs : List Char) : List (List Char) := (pieces isBlank cs).filter fun w => !w.isEmpty

def trim (cs : List Char) : List Char :=
  ((cs.dropWhile isBlank).reverse.dropWhile isBlank).reverse

def trimmed (s : String) : String := .ofList (trim s.toList)

def occursIn (part : List Char) : List Char → Bool
  | [] => part.isEmpty
  | c :: cs => part.isPrefixOf (c :: cs) || occursIn part cs

theorem pieces_ne_nil (p : Char → Bool) (cs : List Char) : pieces p cs ≠ [] := by
  cases cs with
  | nil => simp [pieces]
  | cons c cs =>
      rw [pieces]
      split
      · simp
      · split <;> simp

theorem pieces_append_cons (p : Char → Bool) (as : List Char) {c : Char} (hc : p c) (bs : List Char) :
    pieces p (as ++ c :: bs) = pieces p as ++ pieces p bs := by
  induction as with
  | nil => simp [pieces, hc]
  | cons a as ih =>
      by_cases ha : p a
      · simp [pieces, ha, ih]
      · obtain ⟨w, ws, hw⟩ := List.exists_cons_of_ne_nil (pieces_ne_nil p as)
        simp [pieces, ha, ih, hw]

theorem words_append_cons (as : List Char) {c : Char} (hc : isBlank c) (bs : List Char) :
    words (as ++ c :: bs) = words as ++ words bs := by
  simp [words, pieces_append_cons _ _ hc]

end PlayerAnimation.Text

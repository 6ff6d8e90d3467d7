namespace AwaLang.Text

/-- The Unicode property `White_Space`. -/
def isBlank (c : Char) : Bool :=
  let n := c.toNat
  (0x9 ≤ n && n ≤ 0xd) || n == 0x20 || n == 0x85 || n == 0xa0 || n == 0x1680 ||
    (0x2000 ≤ n && n ≤ 0x200a) || n == 0x2028 || n == 0x2029 || n == 0x202f || n == 0x205f ||
    n == 0x3000

def trim (text : List Char) : List Char :=
  ((text.dropWhile isBlank).reverse.dropWhile isBlank).reverse

/-- The pieces of a text between the characters marked by `cut`: one more than there are marks. -/
def pieces (cut : Char → Bool) (text : List Char) : List (List Char) :=
  text.foldr (fun c found => if cut c then [] :: found else found.modifyHead (c :: ·)) [[]]

@[simp] theorem pieces_nil (cut : Char → Bool) : pieces cut [] = [[]] := rfl

theorem pieces_cons (cut : Char → Bool) (c : Char) (text : List Char) :
    pieces cut (c :: text) =
      if cut c then [] :: pieces cut text else (pieces cut text).modifyHead (c :: ·) := rfl

theorem pieces_ne_nil (cut : Char → Bool) (text : List Char) : pieces cut text ≠ [] := by
  induction text with
  | nil => simp
  | cons c text ih =>
    rw [pieces_cons]
    split
    · simp
    · cases h : pieces cut text with
      | nil => exact absurd h ih
      | cons => simp

theorem pieces_append_mark (cut : Char → Bool) (left right : List Char) (c : Char)
    (mark : cut c = true) :
    pieces cut (left ++ c :: right) = pieces cut left ++ pieces cut right := by
  induction left with
  | nil => simp [pieces_cons, mark]
  | cons d left ih =>
    rw [List.cons_append, pieces_cons, pieces_cons, ih]
    split
    · simp
    · cases h : pieces cut left with
      | nil => exact absurd h (pieces_ne_nil cut left)
      | cons => simp

def lines (text : List Char) : List (List Char) := pieces (· == '\n') text

def words (text : List Char) : List (List Char) :=
  (pieces isBlank text).filter fun piece => !piece.isEmpty

end AwaLang.Text

namespace AwaLang.Text

def numeral : Int → List Char
  | .ofNat n => Nat.toDigits 10 n
  | .negSucc n => '-' :: Nat.toDigits 10 (n + 1)

def digits? (text : List Char) : Option Nat :=
  if text.isEmpty || text.any (!·.isDigit) then none else some (Nat.ofDigitChars 10 text 0)

def signed? : List Char → Option Int
  | '+' :: text => (digits? text).map Int.ofNat
  | '-' :: text => (digits? text).map fun n => -(n : Int)
  | text => (digits? text).map Int.ofNat

def integer? (least greatest : Int) (text : List Char) : Option Int :=
  (signed? text).filter fun n => least ≤ n && n ≤ greatest

/-- A natural number below `bound`; a minus sign is refused, also before zero. -/
def natural? (bound : Nat) : List Char → Option Nat
  | '+' :: text => (digits? text).filter (· < bound)
  | text => (digits? text).filter (· < bound)

theorem digits?_toDigits (n : Nat) : digits? (Nat.toDigits 10 n) = some n := by
  have digits : ∀ c ∈ Nat.toDigits 10 n, c.isDigit = true := fun c member =>
    Nat.isDigit_of_mem_toDigits (by decide) (by decide) member
  have all : (Nat.toDigits 10 n).any (!·.isDigit) = false := by
    simpa using digits
  simp [digits?, all]

theorem signed?_digits (text : List Char) (head : ∀ c ∈ text, c.isDigit = true) :
    signed? text = (digits? text).map Int.ofNat := by
  unfold signed?
  split
  · have := head '+' (by simp)
    simp at this
  · have := head '-' (by simp)
    simp at this
  · rfl

theorem signed?_numeral (n : Int) : signed? (numeral n) = some n := by
  cases n with
  | ofNat n =>
    rw [numeral, signed?_digits _ fun c member =>
      Nat.isDigit_of_mem_toDigits (by decide) (by decide) member, digits?_toDigits]
    rfl
  | negSucc n => simp [numeral, signed?, digits?_toDigits, Int.negSucc_eq]

theorem integer?_numeral (least greatest n : Int) (low : least ≤ n) (high : n ≤ greatest) :
    integer? least greatest (numeral n) = some n := by
  simp [integer?, signed?_numeral, low, high]

end AwaLang.Text

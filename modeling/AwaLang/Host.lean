namespace AwaLang

inductive Reading
  | line (text : String)
  | endOfInput
  /-- No line has come yet; the same read may be tried again. -/
  | notYet
  | broken (message : String)
  deriving DecidableEq, Repr

class Host (σ : Type) where
  read : σ → Reading × σ
  /-- The host after taking the text, or the reason why it took none of it. -/
  write : σ → String → Except String σ

end AwaLang

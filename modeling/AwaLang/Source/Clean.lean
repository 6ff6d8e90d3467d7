import AwaLang.Text.Blank

/-!
Cleaned source text: only `a`, `w`, `~` and single spaces remain. Letters lose their case, a run of
white space becomes one space, and everything else is dropped without ending a run.
-/

namespace AwaLang.Source

def keep (c : Char) : Option Char :=
  if Text.isBlank c then some ' '
  else
    let lower := c.toLower
    if lower = 'a' || lower = 'w' || lower = '~' then some lower else none

def collapse (text : List Char) : List Char :=
  text.foldr (fun c rest => if c = ' ' && rest.head? == some ' ' then rest else c :: rest) []

def clean (text : List Char) : List Char := collapse (text.filterMap keep)

end AwaLang.Source

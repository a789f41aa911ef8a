import Agenda.Text.CaseTable

/-! # Letter case

Lower case of a whole text, upper case of a first letter, and the case folding that text is
sorted by. Lower case is context-free but for the capital sigma, which has a final form.
-/

namespace Agenda.Text

/-- The lower-case form of a character that stands alone. -/
def lowerChar (c : Char) : List Char :=
  let n := c.toNat
  if n < 128 then
    if 65 ≤ n && n ≤ 90 then [Char.ofNat (n + 32)] else [c]
  else if c = 'İ' then ['i', Char.ofNat 775]
  else match CaseRun.moved? lowerRuns n with
    | some m => [Char.ofNat m]
    | none => [c]

/-- Looking past case-ignorable characters, a cased one comes next. -/
def leadsCased (cs : List Char) : Bool :=
  match cs.dropWhile caseIgnorable with
  | [] => false
  | c :: _ => cased c

/-- Lower case, where `afterCased` tells whether the last character that is not case-ignorable
was cased. -/
def lowerFrom (afterCased : Bool) : List Char → List Char
  | [] => []
  | c :: cs =>
    (if c = 'Σ' then [if afterCased && !leadsCased cs then 'ς' else 'σ'] else lowerChar c) ++
      lowerFrom (if caseIgnorable c then afterCased else cased c) cs

def lower (cs : List Char) : List Char :=
  lowerFrom false cs

/-- The upper-case form of a character that stands alone. -/
def upperChar (c : Char) : List Char :=
  let n := c.toNat
  if n < 128 then
    if 97 ≤ n && n ≤ 122 then [Char.ofNat (n - 32)] else [c]
  else match upperSequences.lookup n with
    | some ms => ms.map Char.ofNat
    | none => match CaseRun.moved? upperRuns n with
      | some m => [Char.ofNat m]
      | none => [c]

/-- The first character in upper case, the rest as it is. -/
def capitalize : List Char → List Char
  | [] => []
  | c :: cs => upperChar c ++ cs

def foldChar (c : Char) : List Char :=
  let n := c.toNat
  if n < 128 then lowerChar c
  else match foldSequences.lookup n with
    | some ms => ms.map Char.ofNat
    | none => match CaseRun.moved? foldRuns n with
      | some m => [Char.ofNat m]
      | none => lowerChar c

/-- The form in which two texts that differ in case only are equal. -/
def caseFold (cs : List Char) : List Char :=
  cs.flatMap foldChar

/-- Agreement of a character with a lower-case ASCII letter regardless of case: besides the
letter's two cases, the dotted and dotless i, the long s and the kelvin sign count as letters. -/
def sameLetter (letter c : Char) : Bool :=
  c == letter || [c] == upperChar letter ||
    (letter == 'i' && (c == 'İ' || c == 'ı')) ||
    (letter == 's' && c == 'ſ') ||
    (letter == 'k' && c == Char.ofNat 8490)

end Agenda.Text

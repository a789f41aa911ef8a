import Agenda.Text.Blank
import Agenda.Text.Word
import Agenda.Text.Numeral
import Agenda.Text.Case

/-! # Patterns over text

A small language of patterns with ordered choice. Repetition applies to single characters only,
so a match is found by structural recursion on the pattern and on the text that is left.
Where a pattern matches in several ways, the order of `run` decides: the left alternative before
the right one, the longest repetition first when `greedy` and the shortest first otherwise.
-/

namespace Agenda

/-- A place in a text: the character before it, the text after it, and its index. -/
structure Cursor where
  before : Option Char
  rest : List Char
  index : Nat
deriving Repr

def Cursor.start (cs : List Char) : Cursor :=
  ⟨none, cs, 0⟩

/-- The stretch of text that a numbered part of a pattern matched. -/
structure Capture where
  start : Nat
  stop : Nat
  text : List Char
deriving Repr

/-- Captures by number, the latest first. -/
abbrev Captures := List (Nat × Capture)

inductive Pattern where
  | empty
  /-- One character of a class. -/
  | one (p : Char → Bool)
  /-- From `least` up to `most` characters of a class. -/
  | many (greedy : Bool) (p : Char → Bool) (least : Nat) (most : Option Nat)
  | both (first second : Pattern)
  | either (first second : Pattern)
  | capture (number : Nat) (inner : Pattern)
  | starts
  /-- The end of the text, or the place before a newline that ends it. -/
  | ends
  /-- A place where a word begins or ends. -/
  | edge
  /-- The character before this place is of the class. -/
  | behind (p : Char → Bool)
  /-- The text from here on matches; nothing is consumed. -/
  | ahead (inner : Pattern)
  /-- The text from here on does not match; nothing is consumed. -/
  | notAhead (inner : Pattern)

namespace Pattern

variable {β : Type}

/-- Repetition of a class, longest first. -/
def runGreedy (p : Char → Bool) (k : Cursor → Option β) :
    List Char → Option Char → Nat → Nat → Option Nat → Option β
  | [], before, index, least, _ => if least = 0 then k ⟨before, [], index⟩ else none
  | c :: cs, before, index, least, most =>
    (if p c && most != some 0 then runGreedy p k cs (some c) (index + 1) (least - 1) (most.map (· - 1))
      else none) <|>
    (if least = 0 then k ⟨before, c :: cs, index⟩ else none)

/-- Repetition of a class, shortest first. -/
def runLazy (p : Char → Bool) (k : Cursor → Option β) :
    List Char → Option Char → Nat → Nat → Option Nat → Option β
  | [], before, index, least, _ => if least = 0 then k ⟨before, [], index⟩ else none
  | c :: cs, before, index, least, most =>
    (if least = 0 then k ⟨before, c :: cs, index⟩ else none) <|>
    (if p c && most != some 0 then runLazy p k cs (some c) (index + 1) (least - 1) (most.map (· - 1))
      else none)

def atEnd (c : Cursor) : Bool :=
  match c.rest with
  | [] => true
  | [x] => x == '\n'
  | _ => false

def isWord : Option Char → Bool
  | some c => Text.wordChar c
  | none => false

def atEdge (c : Cursor) : Bool :=
  isWord c.before != isWord c.rest.head?

/-- The first way to match from a cursor after which `k` succeeds. -/
def run : Pattern → {β : Type} → Cursor → Captures → (Cursor → Captures → Option β) → Option β
  | .empty, _, c, g, k => k c g
  | .one p, _, c, g, k =>
    match c.rest with
    | [] => none
    | x :: xs => if p x then k ⟨some x, xs, c.index + 1⟩ g else none
  | .many true p least most, _, c, g, k => runGreedy p (k · g) c.rest c.before c.index least most
  | .many false p least most, _, c, g, k => runLazy p (k · g) c.rest c.before c.index least most
  | .both a b, _, c, g, k => a.run c g fun c g => b.run c g k
  | .either a b, _, c, g, k => a.run c g k <|> b.run c g k
  | .capture n a, _, c, g, k =>
    a.run c g fun d g => k d ((n, ⟨c.index, d.index, c.rest.take (d.index - c.index)⟩) :: g)
  | .starts, _, c, g, k => if c.before.isNone then k c g else none
  | .ends, _, c, g, k => if atEnd c then k c g else none
  | .edge, _, c, g, k => if atEdge c then k c g else none
  | .behind p, _, c, g, k => if c.before.any p then k c g else none
  | .ahead a, _, c, g, k => if (a.run c g fun _ _ => some ()).isSome then k c g else none
  | .notAhead a, _, c, g, k => if (a.run c g fun _ _ => some ()).isNone then k c g else none

/-! ## Building patterns -/

instance : Append Pattern := ⟨both⟩

def anyOf : List Pattern → Pattern
  | [] => one fun _ => false
  | [p] => p
  | p :: ps => either p (anyOf ps)

/-- An optional part, tried first. -/
def opt (p : Pattern) : Pattern :=
  either p empty

def char (c : Char) : Pattern :=
  one (· == c)

def oneFrom (cs : List Char) : Pattern :=
  one cs.contains

def some1 (p : Char → Bool) : Pattern :=
  many true p 1 none

def some0 (p : Char → Bool) : Pattern :=
  many true p 0 none

/-- From `least` to `most` characters of a class, longest first. -/
def upTo (p : Char → Bool) (least most : Nat) : Pattern :=
  many true p least (some most)

def exactly (s : String) : Pattern :=
  s.toList.foldr (fun c p => both (char c) p) empty

/-- The text in any letter case; it is given in lower case. -/
def keyword (s : String) : Pattern :=
  s.toList.foldr (fun c p => both (one (Text.sameLetter c)) p) empty

def keywords (ss : List String) : Pattern :=
  anyOf (ss.map keyword)

def blanks : Pattern :=
  some1 Text.blank

def blanks0 : Pattern :=
  some0 Text.blank

/-- Any character but a newline. -/
def inLine (c : Char) : Bool :=
  c != '\n'

/-- At least one character of the line, as few as possible. -/
def phrase : Pattern :=
  many false inLine 1 none

/-- At least one character of the line, as many as possible. -/
def line : Pattern :=
  many true inLine 1 none

def word : Pattern :=
  some1 Text.wordChar

/-! ## Searching -/

/-- One match: where it lies, what its numbered parts matched, and the place after it. -/
structure Match where
  start : Nat
  stop : Nat
  captures : Captures
  after : Cursor

namespace Match

def capture? (m : Match) (n : Nat) : Option Capture :=
  m.captures.lookup n

/-- The text of a numbered part, empty if the part was passed over. -/
def text (m : Match) (n : Nat) : List Char :=
  ((m.capture? n).map (·.text)).getD []

def has (m : Match) (n : Nat) : Bool :=
  (m.capture? n).isSome

end Match

def matchAt (p : Pattern) (c : Cursor) : Option Match :=
  p.run c [] fun d g => some ⟨c.index, d.index, g, d⟩

def matchStart (p : Pattern) (cs : List Char) : Option Match :=
  p.matchAt (.start cs)

/-- The first match at a cursor or after it. -/
def searchFrom (p : Pattern) : List Char → Option Char → Nat → Option Match
  | [], before, index => p.matchAt ⟨before, [], index⟩
  | c :: cs, before, index =>
    p.matchAt ⟨before, c :: cs, index⟩ <|> searchFrom p cs (some c) (index + 1)

def search (p : Pattern) (cs : List Char) : Option Match :=
  p.searchFrom cs none 0

def found (p : Pattern) (cs : List Char) : Bool :=
  (p.search cs).isSome

/-- The matches from a cursor on, none overlapping the one before; `fuel` bounds their number. -/
def allFrom (p : Pattern) : Nat → Cursor → List Match
  | 0, _ => []
  | fuel + 1, c =>
    match p.searchFrom c.rest c.before c.index with
    | none => []
    | some m =>
      m :: (if m.start < m.stop then p.allFrom fuel m.after
        else match m.after.rest with
          | [] => []
          | x :: xs => p.allFrom fuel ⟨some x, xs, m.after.index + 1⟩)

def all (p : Pattern) (cs : List Char) : List Match :=
  p.allFrom (cs.length + 1) (.start cs)

/-- The text with each match replaced; `index` is where the remaining text begins. -/
def replaceFrom (f : Match → List Char) (index : Nat) (cs : List Char) : List Match → List Char
  | [] => cs
  | m :: ms =>
    cs.take (m.start - index) ++ f m ++ replaceFrom f m.stop (cs.drop (m.stop - index)) ms

def replace (p : Pattern) (f : Match → List Char) (cs : List Char) : List Char :=
  replaceFrom f 0 cs (p.all cs)

def replaceFirst (p : Pattern) (f : Match → List Char) (cs : List Char) : List Char :=
  replaceFrom f 0 cs (p.search cs).toList

def erase (p : Pattern) (cs : List Char) : List Char :=
  p.replace (fun _ => []) cs

end Pattern

end Agenda

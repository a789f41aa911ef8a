/-! # Blank characters

Every script's spaces, the line and paragraph separators and the ASCII controls that end a field
or a line. Trimming and squeezing only ever remove or replace blanks.
-/

namespace Agenda.Text

def blank (c : Char) : Bool :=
  let n := c.toNat
  if n < 128 then (9 ≤ n && n ≤ 13) || (28 ≤ n && n ≤ 32)
  else n == 133 || n == 160 || n == 5760 || (8192 ≤ n && n ≤ 8202) || n == 8232 || n == 8233 ||
    n == 8239 || n == 8287 || n == 12288

/-- Blank, but no separator of fields or records. -/
def space (c : Char) : Bool :=
  blank c && !(28 ≤ c.toNat && c.toNat ≤ 31)

/-- Without the characters in `p` at the end. -/
def dropTail (p : Char → Bool) (cs : List Char) : List Char :=
  (cs.reverse.dropWhile p).reverse

/-- Without the characters in `p` at either end. -/
def stripBoth (p : Char → Bool) (cs : List Char) : List Char :=
  dropTail p (cs.dropWhile p)

/-- Without blanks at either end. -/
def trim (cs : List Char) : List Char :=
  stripBoth blank cs

/-- Every run of at least `least` blanks replaced by one space; `run` holds the blanks since the
last other character. -/
def squeezeFrom (least : Nat) (run : List Char) : List Char → List Char
  | [] => flush
  | c :: cs => if blank c then squeezeFrom least (c :: run) cs else flush ++ c :: squeezeFrom least [] cs
where
  flush : List Char := if run.length < least then run.reverse else [' ']

/-- Every run of blanks replaced by one space. -/
def squeeze (cs : List Char) : List Char :=
  squeezeFrom 1 [] cs

/-- Every run of two or more blanks replaced by one space; a single blank stays what it is. -/
def squeezeWide (cs : List Char) : List Char :=
  squeezeFrom 2 [] cs

end Agenda.Text

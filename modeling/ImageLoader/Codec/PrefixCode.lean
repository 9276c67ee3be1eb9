import ImageLoader.Codec.BitSource

/-!
# Prefix codes

A canonical prefix code is given by the length of the code word of each symbol: shorter words come first, and
words of one length follow the order of the symbols.  Words are read from their highest bit on.

* `PrefixCode.ofLengths?` — the code with these lengths, if they leave room for each other.
* `PrefixCode.read` — the symbol whose word comes next.
-/

namespace ImageLoader

structure PrefixCode where
  /-- How many words there are of length 1, 2, and so on. -/
  counts : List Nat
  /-- The symbols in the order of their words. -/
  symbols : Array Nat

namespace PrefixCode

def maxLength : Nat := 15

/-- The room that is left by words of these counts, in words of the longest length; `none` if there is too
little. -/
def room? : List Nat → Nat → Option Nat
  | [], left => some left
  | n :: rest, left => if 2 * left < n then none else room? rest (2 * left - n)

/-- The code in which symbol `i` has a word of length `lengths[i]`, and none if that is zero. -/
def ofLengths? (lengths : List Nat) : Option PrefixCode :=
  let indexed := lengths.zipIdx
  let ofLength (n : Nat) := (indexed.filter fun (l, _) => l == n).map Prod.snd
  let words := (List.range maxLength).map fun n => ofLength (n + 1)
  let counts := words.map List.length
  (room? counts 1).map fun _ => ⟨counts, words.flatten.toArray⟩

/-- Does every sequence of bits begin with a word? -/
def isComplete (c : PrefixCode) : Bool := room? c.counts 1 == some 0

def size (c : PrefixCode) : Nat := c.symbols.size

/-- Looks for the word among the words of the lengths that are left.  `code` is what was read, `first` the
first word of its length, and `index` the place of that word among all. -/
def readFrom (symbols : Array Nat) : List Nat → Nat → Nat → Nat → BitReader Nat
  | [], _, _, _ => throw (.damaged "the bits spell no symbol")
  | count :: rest, code, first, index => do
    let code := code + (← BitSource.bit)
    if code < first + count then
      match symbols[index + (code - first)]? with
      | some s => return s
      | none => throw (.damaged "the bits spell no symbol")
    else readFrom symbols rest (2 * code) (2 * (first + count)) (index + count)

def read (c : PrefixCode) : BitReader Nat := readFrom c.symbols c.counts 0 0 0

end PrefixCode

end ImageLoader

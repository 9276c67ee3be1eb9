import ImageLoader.Format.Basic

/-!
# Sets of memory formats

The formats that a caller is willing to accept, as a set of bits: bit `n` stands for the format with
number `n`.  From a set one can ask for the member that represents a given format with the least loss.

* `FormatSet.best?` — the least lossy member.
* `ConversionCost` — what makes a conversion worse, gravest first.
* `contains_of` — a singleton holds its member and nothing else.
-/

namespace ImageLoader

structure FormatSet where
  bits : UInt32
deriving DecidableEq, Inhabited

namespace FormatSet

def empty : FormatSet := ⟨0⟩

def all : FormatSet := ⟨0x7fffff⟩

def of (f : MemoryFormat) : FormatSet := ⟨1 <<< UInt32.ofNat f.value⟩

/-- The formats whose bits are set; bits that stand for no format are dropped. -/
def ofBits (bits : UInt32) : FormatSet := ⟨bits &&& all.bits⟩

def isEmpty (s : FormatSet) : Bool := s.bits == 0

def contains (s : FormatSet) (f : MemoryFormat) : Bool := s.bits &&& (of f).bits != 0

def insert (s : FormatSet) (f : MemoryFormat) : FormatSet := ⟨s.bits ||| (of f).bits⟩

def union (s t : FormatSet) : FormatSet := ⟨s.bits ||| t.bits⟩

def inter (s t : FormatSet) : FormatSet := ⟨s.bits &&& t.bits⟩

def ofList (l : List MemoryFormat) : FormatSet := l.foldl insert empty

/-- The members, in the order of their numbers. -/
def toList (s : FormatSet) : List MemoryFormat := MemoryFormat.all.filter s.contains

theorem contains_of (f g : MemoryFormat) : (of f).contains g = decide (f = g) := by
  cases f <;> cases g <;> rfl

end FormatSet

/-- What is lost when one format is converted into another, gravest first. -/
structure ConversionCost where
  losesAlpha : Bool
  losesColor : Bool
  losesDepth : Bool
  changesPremultiplication : Bool
  pixelSize : Nat
  number : Nat
deriving DecidableEq

namespace ConversionCost

def of (source target : MemoryFormat) : ConversionCost where
  losesAlpha := source.hasAlpha && !target.hasAlpha
  losesColor := !source.isGrayscale && target.isGrayscale
  losesDepth := target.channelType.size < source.channelType.size
  changesPremultiplication := source.isPremultiplied != target.isPremultiplied
  pixelSize := target.nBytes
  number := target.value

/-- Costs as a list of digits, to be compared from the front. -/
def digits (c : ConversionCost) : List Nat :=
  [c.losesAlpha.toNat, c.losesColor.toNat, c.losesDepth.toNat, c.changesPremultiplication.toNat,
    c.pixelSize, c.number]

def lower (c d : ConversionCost) : Bool := c.digits < d.digits

end ConversionCost

namespace FormatSet

/-- The first of the candidates with the lowest cost, against the best so far. -/
def cheapest (source : MemoryFormat) (best : MemoryFormat) : List MemoryFormat → MemoryFormat
  | [] => best
  | f :: rest =>
    if (ConversionCost.of source f).lower (ConversionCost.of source best) then
      cheapest source f rest
    else
      cheapest source best rest

/-- The member that represents `source` with the least loss: `source` itself where it is one. -/
def best? (s : FormatSet) (source : MemoryFormat) : Option MemoryFormat :=
  if s.contains source then some source
  else
    match s.toList with
    | [] => none
    | f :: rest => some (cheapest source f rest)

end FormatSet

end ImageLoader

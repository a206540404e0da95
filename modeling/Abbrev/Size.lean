/-!
# Limits of size

A numeral may have so many digits and no more, and so many copies of something are made and no more:
their number has to be an index, and what they take has to have addresses. What goes beyond these
limits fails with an error of its own kind, which no other error is mixed with.

How much room there is on a particular machine is no part of this.
-/

namespace Abbrev

/-- What is too large. -/
inductive SizeError where
  /-- A numeral with more digits than are read. -/
  | digits (count : Nat)
  /-- A number of copies that is no index. -/
  | index
  /-- Copies that take more than can have addresses. -/
  | memory
  deriving DecidableEq, Repr

namespace SizeError

/-- The largest number of digits that are read as a numeral. -/
def digitLimit : Nat := 4300

/-- The number that no index and no address reaches: `2 ^ 63`. -/
def indexLimit : Nat := 9223372036854775808

/-- The wording of an error. -/
def message : SizeError → String
  | .digits count =>
    s!"Exceeds the limit ({digitLimit} digits) for integer string conversion: value has {count} " ++
      "digits; use sys.set_int_max_str_digits() to increase the limit"
  | .index => "cannot fit 'int' into an index-sized integer"
  | .memory => ""

/-- Why there cannot be `count` copies that take `width` bytes each and `extra` ones together. -/
def ofCopies? (width extra count : Nat) : Option SizeError :=
  if indexLimit ≤ count then some .index
  else if indexLimit ≤ width * count + extra then some .memory
  else none

end SizeError

end Abbrev

/-!
# Integers as doubles

An integer counts as a double where one is wanted, and a double is cut down to an integer where whole amounts are
counted.

* `ofInt64`: the nearest double.
* `truncate`: a double without what follows the point.
-/

namespace QueryChain.Decimal

/-- The double nearest to an integer; of two that are equally near, the one with an even last bit. -/
def ofInt64 (n : Int64) : Float :=
  .ofModel (.ofInt64 n)

/-- A double without what follows the point. Beyond 64 bits it is the end of their range, and zero if it is no
number. -/
def truncate (x : Float) : Int64 :=
  x.toModel.toInt64

end QueryChain.Decimal

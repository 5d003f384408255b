/-
Hash data. A hashed thing contributes a list of items, each item tagged so
that lists of different shape cannot be confused; two things hash alike
when their lists are equal. A finishing function then turns such a list
into a word.
-/

namespace RelAlgebra

/-- One item of hash data. -/
inductive DigestItem where
  /-- Which constructor of its type a thing is. -/
  | variant (index : Nat)
  /-- How many parts follow. -/
  | count (n : Nat)
  | flag (b : Bool)
  | word (w : UInt64)
  | text (s : String)
  deriving DecidableEq, Hashable, Repr

/-- Everything a thing contributes to a hash, in order. -/
abbrev Digest := List DigestItem

/-- How the data of one part is condensed to a word. -/
abbrev Digest.Finish := Digest → UInt64

end RelAlgebra

/-
Changing the case of a text. Characters are mapped one by one, except
that a capital sigma becomes the final form `ς` where it ends a word:
where a cased character stands before it and none follows, characters
that are ignorable for case being looked through on both sides.
-/
import RelAlgebra.Text.CaseMap
import RelAlgebra.Text.Cased

namespace RelAlgebra.Text

/-- Whether the first character that is not ignorable is cased. -/
def meetsCased (cs : List Char) : Bool :=
  match cs.dropWhile caseIgnorable.contains with
  | c :: _ => cased.contains c
  | [] => false

/-- The small sigma that fits between the characters `before` (nearest
first) and `after`. -/
def smallSigma (before after : List Char) : Char :=
  if meetsCased before && !meetsCased after then 'ς' else 'σ'

/-- Lower case of the characters that follow `before` (nearest first). -/
def lowerAfter : List Char → List Char → List Char
  | _, [] => []
  | before, c :: rest =>
    (if c = 'Σ' then [smallSigma before rest] else lowerMap.apply c)
      ++ lowerAfter (c :: before) rest

/-- The text in lower case. -/
def lowercase (s : String) : String :=
  String.ofList (lowerAfter [] s.toList)

/-- The text in upper case. -/
def uppercase (s : String) : String :=
  String.ofList (s.toList.flatMap upperMap.apply)

end RelAlgebra.Text

/-
Quoted strings: the form in which a text appears inside a printed value.
Quotes and backslashes are escaped, as is everything a reader could not
see on its own.
-/
import RelAlgebra.Text.GraphemeExtend
import RelAlgebra.Text.Unprintable

namespace RelAlgebra.Text

/-- The sound marks of halfwidth katakana. Each takes a place of its own
and can be read there, although it extends the character before it. -/
def halfwidthMarks : CharSet where
  ranges := [(0xff9e, 0xff9f)]

/-- The fillers of Hangul: letters that are meant to be ignored in display
(the letters in the Unicode property Default_Ignorable_Code_Point). -/
def hangulFillers : CharSet where
  ranges := [(0x115f, 0x1160), (0x3164, 0x3164), (0xffa0, 0xffa0)]

/-- Whether a character is left unseen, or seen only as part of the one
before it. -/
def isHidden (c : Char) : Bool :=
  unprintable.contains c || hangulFillers.contains c
    || (graphemeExtend.contains c && !halfwidthMarks.contains c)

/-- The escape by code point, in hexadecimal without leading zeros. -/
def codePointEscape (c : Char) : List Char :=
  ['\\', 'u', '\x7b'] ++ Nat.toDigits 16 c.toNat ++ ['\x7d']

/-- How one character is written between quotes. -/
def escape (c : Char) : List Char :=
  match c with
  | '\x00' => ['\\', '0']
  | '\t' => ['\\', 't']
  | '\n' => ['\\', 'n']
  | '\x0d' => ['\\', 'r']
  | '\\' => ['\\', '\\']
  | '"' => ['\\', '"']
  | c =>
    if isHidden c then
      codePointEscape c
    else
      [c]

/-- The text between double quotes. -/
def quote (s : String) : String :=
  String.ofList ('"' :: s.toList.flatMap escape ++ ['"'])

/-- A printed list: brackets around the items, commas between. -/
def bracketed (items : List String) : String :=
  "[" ++ ", ".intercalate items ++ "]"

end RelAlgebra.Text

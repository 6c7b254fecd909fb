import AnnotationMetadata.Text.Unprintable

set_option autoImplicit false

/-!
# Showing names

Names are shown between double quotes. A quote, a backslash and whatever cannot
be printed is escaped, so that what is shown can be told apart.
-/

namespace AnnotationMetadata.Text

/-- A character as it is shown between quotes. -/
def shownChar (c : Char) : List Char :=
  if c = '"' then ['\\', '"']
  else if c = '\\' then ['\\', '\\']
  else if c = '\n' then ['\\', 'n']
  else if c = '\r' then ['\\', 'r']
  else if c = '\t' then ['\\', 't']
  else if c.toNat = 0 then ['\\', '0']
  else if isUnprintable c then '\\' :: 'u' :: '{' :: (Nat.toDigits 16 c.toNat ++ ['}'])
  else [c]

def shown (name : String) : String :=
  String.ofList ('"' :: (name.toList.flatMap shownChar ++ ['"']))

def shownSet (names : List String) : String :=
  "\x7b" ++ String.intercalate ", " (names.map shown) ++ "\x7d"

end AnnotationMetadata.Text

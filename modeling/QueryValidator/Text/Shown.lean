import QueryValidator.Text
import QueryValidator.Text.HiddenTable

/-!
# Shown strings

How a message shows a string it was given: between quotes, with the quote and the backslash
escaped, `\0 \t \n \r` for these four, and `\u` with the code point in braces for every character
that would not be seen.
-/

namespace QueryValidator.Text

/-- The character leaves no mark of its own on a page. -/
def isHidden (c : Char) : Bool :=
  hiddenRanges.any fun (first, last) => first ≤ c.toNat && c.toNat ≤ last

def shownChar (c : Char) : Text :=
  if c.toNat = 0 then "\\0"
  else if c.toNat = 9 then "\\t"
  else if c.toNat = 10 then "\\n"
  else if c.toNat = 13 then "\\r"
  else if c = '"' then "\\\""
  else if c = '\\' then "\\\\"
  else if isHidden c then "\\u\x7b" ++ hexOfNat c.toNat ++ "\x7d"
  else [c]

def shown (t : Text) : Text :=
  '"' :: (t.flatMap shownChar ++ ['"'])

end QueryValidator.Text

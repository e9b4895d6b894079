import QueryValidator.Text

/-!
# Quoted strings

The string literal of JSON: quote, backslash and the characters below U+0020 are escaped, the
latter by a short escape where there is one and by `\u00xx` otherwise; all else stands for itself.
-/

namespace QueryValidator.Text

/-- What stands for `c` between the quotes. -/
def escaped (c : Char) : Text :=
  if c = '"' then "\\\""
  else if c = '\\' then "\\\\"
  else if c.toNat = 8 then "\\b"
  else if c.toNat = 9 then "\\t"
  else if c.toNat = 10 then "\\n"
  else if c.toNat = 12 then "\\f"
  else if c.toNat = 13 then "\\r"
  else if c.toNat < 16 then "\\u000" ++ hexOfNat c.toNat
  else if c.toNat < 32 then "\\u00" ++ hexOfNat c.toNat
  else [c]

/-- The literal that denotes `t`. -/
def quoted (t : Text) : Text :=
  '"' :: (t.flatMap escaped ++ ['"'])

end QueryValidator.Text

import QueryValidator.Json.Value
import QueryValidator.Json.Fault

/-!
# Scanning JSON text

Functions that take one token from the front of a text and return the rest.  A string or number that
is needed is read with all its rules (`readString`, `readNumber`); one that is not is only checked
for its form (`skipString`, `skipNumber`), so that there a lone surrogate or a number of any size may
stand.
-/

namespace QueryValidator.Json

def isBlankChar (c : Char) : Bool :=
  c == ' ' || c == '\n' || c == '\t' || c == '\r'

def skipBlanks (t : Text) : Text :=
  t.dropWhile isBlankChar

/-- Takes the given letters from the front. -/
def word : (letters : Text) → Text → Except Fault Text
  | [], t => .ok t
  | _ :: _, [] => .error (.unfinished .value)
  | e :: es, c :: r => if c = e then word es r else .error (.malformed .expectedWord)

/-! ### Strings -/

def hexDigit? (c : Char) : Option Nat :=
  if '0' ≤ c ∧ c ≤ '9' then some (c.toNat - 48)
  else if 'a' ≤ c ∧ c ≤ 'f' then some (c.toNat - 87)
  else if 'A' ≤ c ∧ c ≤ 'F' then some (c.toNat - 55)
  else none

/-- The character denoted by a backslash and `c`. -/
def shortEscape? (c : Char) : Option Char :=
  if c = '"' ∨ c = '\\' ∨ c = '/' then some c
  else if c = 'b' then some (Char.ofNat 8)
  else if c = 'f' then some (Char.ofNat 12)
  else if c = 'n' then some '\n'
  else if c = 'r' then some '\r'
  else if c = 't' then some '\t'
  else none

def isHighSurrogate (n : Nat) : Bool := 0xD800 ≤ n && n ≤ 0xDBFF

def isLowSurrogate (n : Nat) : Bool := 0xDC00 ≤ n && n ≤ 0xDFFF

/-- Where the reader of a string stands: between characters, after a backslash, inside the digits of
an escape (with how many are left, the value so far and the high surrogate before it), or after a
high surrogate, before the backslash and before the `u` of the low one. -/
inductive StringState where
  | plain
  | escape
  | hex (left value : Nat) (high : Option Nat)
  | lowSlash (high : Nat)
  | lowLetter (high : Nat)

/-- The text still has the four bytes of an escape. -/
def hasFourBytes : Text → Bool
  | a :: b :: c :: d :: _ => 4 ≤ Text.utf8Size [a, b, c, d]
  | t => 4 ≤ Text.utf8Size t

/-- Reads to the closing quote. -/
def stringFrom : StringState → Text → Except Fault (Text × Text)
  | _, [] => .error (.unfinished .string)
  | .plain, c :: r =>
    if c = '"' then .ok ([], r)
    else if c = '\\' then stringFrom .escape r
    else if c.toNat < 0x20 then .error (.malformed .controlCharacter)
    else (stringFrom .plain r).map fun (s, rest) => (c :: s, rest)
  | .escape, c :: r =>
    if c = 'u' then
      if hasFourBytes r then stringFrom (.hex 3 0 none) r else .error (.unfinished .string)
    else match shortEscape? c with
      | some x => (stringFrom .plain r).map fun (s, rest) => (x :: s, rest)
      | none => .error (.malformed .invalidEscape)
  | .hex left value high, c :: r =>
    match hexDigit? c with
    | none => .error (.malformed .invalidEscape)
    | some d =>
      let n := value * 16 + d
      match left, high with
      | left + 1, _ => stringFrom (.hex left n high) r
      | 0, none =>
        if isLowSurrogate n then .error (.malformed .loneSurrogate)
        else if isHighSurrogate n then stringFrom (.lowSlash n) r
        else (stringFrom .plain r).map fun (s, rest) => (Char.ofNat n :: s, rest)
      | 0, some h =>
        if isLowSurrogate n then
          let x := Char.ofNat ((h - 0xD800) * 0x400 + (n - 0xDC00) + 0x10000)
          (stringFrom .plain r).map fun (s, rest) => (x :: s, rest)
        else .error (.malformed .loneSurrogate)
  | .lowSlash high, c :: r =>
    if c = '\\' then stringFrom (.lowLetter high) r else .error (.malformed .unfinishedPair)
  | .lowLetter high, c :: r =>
    if c = 'u' then
      if hasFourBytes r then stringFrom (.hex 3 0 (some high)) r else .error (.unfinished .string)
    else .error (.malformed .unfinishedPair)

/-- The string whose opening quote has been taken. -/
def readString (t : Text) : Except Fault (Text × Text) :=
  stringFrom .plain t

def skipStringFrom : StringState → Text → Except Fault Text
  | _, [] => .error (.unfinished .string)
  | .escape, c :: r =>
    if c = 'u' then
      if hasFourBytes r then skipStringFrom (.hex 3 0 none) r else .error (.unfinished .string)
    else if (shortEscape? c).isSome then skipStringFrom .plain r
    else .error (.malformed .invalidEscape)
  | .hex left _ _, c :: r =>
    if (hexDigit? c).isNone then .error (.malformed .invalidEscape)
    else match left with
      | left + 1 => skipStringFrom (.hex left 0 none) r
      | 0 => skipStringFrom .plain r
  | _, c :: r =>
    if c = '"' then .ok r
    else if c = '\\' then skipStringFrom .escape r
    else if c.toNat < 0x20 then .error (.malformed .controlCharacter)
    else skipStringFrom .plain r

/-- The rest of the text after a string whose opening quote has been taken. -/
def skipString (t : Text) : Except Fault Text :=
  skipStringFrom .plain t

/-! ### Numbers -/

def digitValue (c : Char) : Nat := c.toNat - 48

/-- Appends digits to `acc` as long as the result fits `limit`; returns it with the digits that are
left. -/
def accumulate (limit acc : Nat) : Text → Nat × Text
  | [] => (acc, [])
  | c :: r =>
    let n := acc * 10 + digitValue c
    if n > limit then (acc, c :: r) else accumulate limit n r

/-- The greatest natural number of 64 bits. -/
def maxSignificand : Nat := 18446744073709551615

/-- The greatest signed number of 32 bits. -/
def maxExponent : Nat := 2147483647

/-- `n` for the least signed number `-n` of 64 bits. -/
def maxNegative : Nat := 9223372036854775808

/-- `significand * 10 ^ exponent` as a double: the significand is rounded, then the product. -/
def doubleOf (negative : Bool) (significand : Nat) (exponent : Int) : Except Fault JsonNumber :=
  match (Magnitude.ofNat significand).bind fun x => x.timesPowerOfTen exponent with
  | some x => .ok (.double ⟨negative, x⟩)
  | none => .error (.malformed .numberOutOfRange)

/-- The exponent after its letter, and then the number. -/
def exponentPart (negative : Bool) (significand : Nat) (start : Int) (t : Text) :
    Except Fault (JsonNumber × Text) :=
  let (down, body) := match t with
    | '+' :: r => (false, r)
    | '-' :: r => (true, r)
    | _ => (false, t)
  match body with
  | [] => .error (.unfinished .value)
  | c :: _ =>
    if !c.isDigit then .error (.malformed .invalidNumber)
    else
      let ds := body.takeWhile Char.isDigit
      let rest := body.dropWhile Char.isDigit
      let (e, left) := accumulate maxExponent 0 ds
      if left.isEmpty then
        (doubleOf negative significand (if down then start - e else start + e)).map (·, rest)
      else if significand ≠ 0 ∧ !down then .error (.malformed .numberOutOfRange)
      else .ok (.double ⟨negative, Magnitude.zero⟩, rest)

/-- The digits after the point, and then the number.  Digits that no longer fit the significand are
dropped. -/
def fractionPart (negative : Bool) (significand : Nat) (start : Int) (t : Text) :
    Except Fault (JsonNumber × Text) :=
  let ds := t.takeWhile Char.isDigit
  let rest := t.dropWhile Char.isDigit
  if ds.isEmpty then
    .error (if rest.isEmpty then .unfinished .value else .malformed .invalidNumber)
  else
    let (n, left) := accumulate maxSignificand significand ds
    let e := start - (ds.length - left.length : Nat)
    match rest with
    | 'e' :: r => exponentPart negative n e r
    | 'E' :: r => exponentPart negative n e r
    | _ => (doubleOf negative n e).map (·, rest)

/-- The integer `n` or `-n`; negative zero and what does not fit 64 bits are doubles. -/
def integerOf (negative : Bool) (n : Nat) : Except Fault JsonNumber :=
  if !negative then .ok (.nat n)
  else if n = 0 ∨ n > maxNegative then doubleOf true n 0
  else .ok (.negative n)

/-- The number whose sign has been taken. -/
def readNumber (negative : Bool) (t : Text) : Except Fault (JsonNumber × Text) :=
  match t with
  | [] => .error (.unfinished .value)
  | c :: r =>
    if !c.isDigit then .error (.malformed .invalidNumber)
    else if c = '0' ∧ (r.head?.any Char.isDigit) then .error (.malformed .invalidNumber)
    else
      let rest := t.dropWhile Char.isDigit
      let (n, left) := accumulate maxSignificand 0 (t.takeWhile Char.isDigit)
      match rest with
      | '.' :: r => fractionPart negative n left.length r
      | 'e' :: r => exponentPart negative n left.length r
      | 'E' :: r => exponentPart negative n left.length r
      | _ =>
        if left.isEmpty then (integerOf negative n).map (·, rest)
        else (doubleOf negative n left.length).map (·, rest)

/-- One digit or more. -/
def skipDigits (t : Text) : Except Fault Text :=
  if t.head?.any Char.isDigit then .ok (t.dropWhile Char.isDigit)
  else .error (.malformed .invalidNumber)

def skipExponent (t : Text) : Except Fault Text :=
  match t with
  | '+' :: r => skipDigits r
  | '-' :: r => skipDigits r
  | _ => skipDigits t

def skipTail (t : Text) : Except Fault Text :=
  match t with
  | 'e' :: r => skipExponent r
  | 'E' :: r => skipExponent r
  | _ => .ok t

/-- The rest of the text after a number whose sign has been taken. -/
def skipNumber (t : Text) : Except Fault Text := do
  let rest ← skipDigits t
  if t.head? = some '0' ∧ (t.tail.head?.any Char.isDigit) then .error (.malformed .invalidNumber)
  else match rest with
    | '.' :: r => skipTail (← skipDigits r)
    | _ => skipTail rest

/-! ### Brackets -/

/-- The text at the next element of an array, `none` if the array ends here. -/
def nextElement (first : Bool) (t : Text) : Except Fault (Option Text) :=
  match skipBlanks t with
  | [] => .error (.unfinished .list)
  | ']' :: _ => .ok none
  | c :: r =>
    if first then .ok (some (c :: r))
    else if c ≠ ',' then .error (.malformed .expectedListEnd)
    else match skipBlanks r with
      | [] => .error (.unfinished .value)
      | ']' :: _ => .error (.malformed .trailingComma)
      | rest => .ok (some rest)

/-- The text at the next element of an array that is passed over, `none` if the array ends here.
After a comma an element has to follow, and it is left to that element to say what is wrong. -/
def nextSkipped (first : Bool) (t : Text) : Except Fault (Option Text) :=
  match skipBlanks t with
  | [] => .error (.unfinished .list)
  | ']' :: _ => .ok none
  | c :: r =>
    if first then .ok (some (c :: r))
    else if c = ',' then .ok (some r)
    else .error (.malformed .expectedListEnd)

/-- Takes the closing bracket of an array. -/
def closeArray (t : Text) : Except Fault Text :=
  match skipBlanks t with
  | [] => .error (.unfinished .list)
  | ']' :: r => .ok r
  | ',' :: r =>
    match skipBlanks r with
    | ']' :: _ => .error (.malformed .trailingComma)
    | _ => .error (.malformed .trailingCharacters)
  | _ => .error (.malformed .trailingCharacters)

/-- The text after the opening quote of the next key, `none` if the object ends here. -/
def nextKey (first : Bool) (t : Text) : Except Fault (Option Text) :=
  match skipBlanks t with
  | [] => .error (.unfinished .object)
  | '}' :: _ => .ok none
  | c :: r =>
    if first then
      if c = '"' then .ok (some r) else .error (.malformed .keyMustBeString)
    else if c ≠ ',' then .error (.malformed .expectedObjectEnd)
    else match skipBlanks r with
      | [] => .error (.unfinished .value)
      | '"' :: rest => .ok (some rest)
      | '}' :: _ => .error (.malformed .trailingComma)
      | _ => .error (.malformed .keyMustBeString)

/-- Takes the opening quote of a key that has to follow. -/
def openKey (t : Text) : Except Fault Text :=
  match skipBlanks t with
  | [] => .error (.unfinished .object)
  | '"' :: r => .ok r
  | _ => .error (.malformed .keyMustBeString)

/-- The text after the opening quote of the next key of an object that is passed over, `none` if the
object ends here. -/
def nextSkippedKey (first : Bool) (t : Text) : Except Fault (Option Text) :=
  match skipBlanks t with
  | [] => .error (.unfinished .object)
  | '}' :: _ => .ok none
  | c :: r =>
    if first then (openKey (c :: r)).map some
    else if c = ',' then (openKey r).map some
    else .error (.malformed .expectedObjectEnd)

def colon (t : Text) : Except Fault Text :=
  match skipBlanks t with
  | [] => .error (.unfinished .object)
  | ':' :: r => .ok r
  | _ => .error (.malformed .expectedColon)

/-- Takes the closing brace of an object. -/
def closeObject (t : Text) : Except Fault Text :=
  match skipBlanks t with
  | [] => .error (.unfinished .object)
  | '}' :: r => .ok r
  | ',' :: _ => .error (.malformed .trailingComma)
  | _ => .error (.malformed .trailingCharacters)

/-- Nothing but blanks is left. -/
def atEnd (t : Text) : Except Fault Unit :=
  if (skipBlanks t).isEmpty then .ok () else .error (.malformed .trailingCharacters)

/-- The elements of an array and its closing bracket, each element read by `item`.  There are
fewer than `bound` of them. -/
def elements {α : Type} (item : Text → Except Fault (α × Text)) :
    (bound : Nat) → (first : Bool) → Text → Except Fault (List α × Text)
  | 0, _, _ => .error (.unfinished .list)
  | n + 1, first, t => do
    match ← nextElement first t with
    | none => return ([], ← closeArray t)
    | some r =>
      let (x, r) ← item r
      let (xs, r) ← elements item n false r
      return (x :: xs, r)

/-- The members of an object and its closing brace.  `step` is given the key, the state so far and
the text after the key, and takes the colon and the value.  There are fewer than `bound` members. -/
def members {σ : Type} (step : Text → σ → Text → Except Fault (σ × Text)) :
    (bound : Nat) → (first : Bool) → σ → Text → Except Fault (σ × Text)
  | 0, _, _, _ => .error (.unfinished .object)
  | n + 1, first, s, t => do
    match ← nextKey first t with
    | none => return (s, ← closeObject t)
    | some r =>
      let (key, r) ← readString r
      let (s, r) ← step key s r
      members step n false s r

end QueryValidator.Json

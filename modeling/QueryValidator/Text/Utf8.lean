import QueryValidator.Text

/-!
# UTF-8

`encode` writes text as bytes and `decode` reads it back or says where the bytes stop being UTF-8:
the position of the first byte of the bad sequence, and how many bytes belong to it (none when the
input ends inside a sequence that was well formed so far).  `decodeLossy` puts U+FFFD in the place
of each bad sequence.
-/

namespace QueryValidator.Utf8

/-- Where bytes stop being UTF-8. -/
structure Fault where
  position : Nat
  /-- The length of the bad sequence, `none` if the input ends too early. -/
  length : Option Nat
deriving DecidableEq, Repr

def Fault.message (f : Fault) : Text :=
  match f.length with
  | some n =>
    "invalid utf-8 sequence of " ++ Text.ofNat n ++ " bytes from index " ++ Text.ofNat f.position
  | none => "incomplete utf-8 byte sequence from index " ++ Text.ofNat f.position

def encodeChar (c : Char) : List UInt8 :=
  let n := c.toNat
  if n < 0x80 then [n.toUInt8]
  else if n < 0x800 then [(0xC0 + n / 64).toUInt8, (0x80 + n % 64).toUInt8]
  else if n < 0x10000 then
    [(0xE0 + n / 4096).toUInt8, (0x80 + n / 64 % 64).toUInt8, (0x80 + n % 64).toUInt8]
  else
    [(0xF0 + n / 262144).toUInt8, (0x80 + n / 4096 % 64).toUInt8, (0x80 + n / 64 % 64).toUInt8,
      (0x80 + n % 64).toUInt8]

def encode (t : Text) : List UInt8 :=
  t.flatMap encodeChar

def isContinuation (b : UInt8) : Bool :=
  0x80 ≤ b && b ≤ 0xBF

/-- Whether `b` may follow the leading byte `a` of a sequence of three or four bytes; surrogates,
overlong forms and values above U+10FFFF are refused here. -/
def mayFollow (a b : UInt8) : Bool :=
  if a = 0xE0 then 0xA0 ≤ b && b ≤ 0xBF
  else if a = 0xED then 0x80 ≤ b && b ≤ 0x9F
  else if a = 0xF0 then 0x90 ≤ b && b ≤ 0xBF
  else if a = 0xF4 then 0x80 ≤ b && b ≤ 0x8F
  else isContinuation b

/-- What stands at the front of some bytes. -/
inductive Step where
  | char (c : Char) (rest : List UInt8)
  | bad (length : Nat) (rest : List UInt8)
  | truncated

def low (b : UInt8) : Nat := b.toNat % 64

/-- Takes the sequence with leading byte `a` from the front. -/
def step (a : UInt8) (r : List UInt8) : Step :=
  if a < 0x80 then .char (Char.ofNat a.toNat) r
  else if 0xC2 ≤ a && a ≤ 0xDF then
    match r with
    | [] => .truncated
    | b :: r' =>
      if isContinuation b then .char (Char.ofNat ((a.toNat - 0xC0) * 64 + low b)) r' else .bad 1 r
  else if 0xE0 ≤ a && a ≤ 0xEF then
    match r with
    | [] => .truncated
    | b :: r' =>
      if !mayFollow a b then .bad 1 r
      else match r' with
        | [] => .truncated
        | c :: r'' =>
          if isContinuation c then
            .char (Char.ofNat ((a.toNat - 0xE0) * 4096 + low b * 64 + low c)) r''
          else .bad 2 r'
  else if 0xF0 ≤ a && a ≤ 0xF4 then
    match r with
    | [] => .truncated
    | b :: r' =>
      if !mayFollow a b then .bad 1 r
      else match r' with
        | [] => .truncated
        | c :: r'' =>
          if !isContinuation c then .bad 2 r'
          else match r'' with
            | [] => .truncated
            | d :: r''' =>
              if isContinuation d then
                .char (Char.ofNat ((a.toNat - 0xF0) * 262144 + low b * 4096 + low c * 64 + low d))
                  r'''
              else .bad 3 r''
  else .bad 1 r

/-- `fuel` bounds the number of sequences; the number of bytes is enough. -/
def decodeFrom : (fuel position : Nat) → List UInt8 → Except Fault Text
  | _, _, [] => .ok []
  | 0, p, _ :: _ => .error ⟨p, none⟩
  | n + 1, p, a :: r =>
    match step a r with
    | .char c rest => (decodeFrom n (p + c.utf8Size) rest).map (c :: ·)
    | .bad k _ => .error ⟨p, some k⟩
    | .truncated => .error ⟨p, none⟩

/-- The text of some bytes, or the first place where they are not UTF-8. -/
def decode (bytes : List UInt8) : Except Fault Text :=
  decodeFrom bytes.length 0 bytes

def decodeLossyFrom : (fuel : Nat) → List UInt8 → Text
  | _, [] => []
  | 0, _ :: _ => []
  | n + 1, a :: r =>
    match step a r with
    | .char c rest => c :: decodeLossyFrom n rest
    | .bad _ rest => '\uFFFD' :: decodeLossyFrom n rest
    | .truncated => ['\uFFFD']

/-- The text of some bytes with U+FFFD for each sequence that is not UTF-8. -/
def decodeLossy (bytes : List UInt8) : Text :=
  decodeLossyFrom bytes.length bytes

end QueryValidator.Utf8

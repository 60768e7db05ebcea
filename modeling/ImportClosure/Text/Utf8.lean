import ImportClosure.Text.Basic
/-!
The byte forms of a text: UTF-8 and Latin-1.

`Utf8.encode` fails exactly on texts that hold a surrogate. Decoding works step by step: a
`Utf8.Step` says whether the bytes start with a well-formed code point or with an ill-formed
subpart, which is as long as a prefix of some well-formed sequence can be. Strict decoding
stops at the first ill-formed subpart and reports it; lossy decoding writes U+FFFD for each.
-/

namespace ImportClosure

/-- A byte string. -/
abbrev Bytes := List UInt8

/-- Where a text cannot be encoded: the positions of the first run of surrogates, and the first
of them. -/
structure Text.Unencodable where
  /-- The first surrogate. -/
  codePoint : CodePoint
  /-- Its position. -/
  first : Nat
  /-- The position after the run of surrogates. -/
  stop : Nat
deriving DecidableEq, Repr

namespace Text.Unencodable

/-- The failure in words. -/
def message (e : Text.Unencodable) : Text :=
  if e.stop = e.first + 1 then
    "'utf-8' codec can't encode character '\\u" ++ hexDigits 4 e.codePoint.val
      ++ "' in position " ++ Text.ofNat e.first ++ ": surrogates not allowed"
  else
    "'utf-8' codec can't encode characters in position " ++ Text.ofNat e.first ++ "-"
      ++ Text.ofNat (e.stop - 1) ++ ": surrogates not allowed"

end Text.Unencodable

namespace Utf8

/-! ## Encoding -/

/-- The bytes of one code point. -/
def encodeCodePoint (c : CodePoint) : Bytes :=
  let n := c.val
  if n < 0x80 then [n.toUInt8]
  else if n < 0x800 then [(0xC0 + n / 64).toUInt8, (0x80 + n % 64).toUInt8]
  else if n < 0x10000 then
    [(0xE0 + n / 4096).toUInt8, (0x80 + n / 64 % 64).toUInt8, (0x80 + n % 64).toUInt8]
  else
    [(0xF0 + n / 262144).toUInt8, (0x80 + n / 4096 % 64).toUInt8, (0x80 + n / 64 % 64).toUInt8,
      (0x80 + n % 64).toUInt8]

/-- The bytes of a text, a surrogate treated as if it had a byte form. -/
def encodeAll (t : Text) : Bytes :=
  t.flatMap encodeCodePoint

/-- The bytes of a text without surrogates. -/
def encode (t : Text) : Except Text.Unencodable Bytes :=
  match t.findIdx? CodePoint.isSurrogate with
  | none => .ok (encodeAll t)
  | some i =>
    let run := (t.drop i).takeWhile CodePoint.isSurrogate
    .error ⟨run.headD (CodePoint.ofNat 0), i, i + run.length⟩

/-! ## Decoding -/

/-- Why the bytes at some place are not UTF-8. -/
inductive Fault where
  /-- No sequence begins with this byte. -/
  | invalidStart
  /-- The sequence begun here is broken off by a byte that cannot continue it. -/
  | invalidContinuation
  /-- The bytes end within a sequence. -/
  | truncated
deriving DecidableEq, Repr

/-- What a byte string begins with. -/
inductive Step where
  /-- Nothing: the string is empty. -/
  | done
  /-- A code point, and the bytes after it. -/
  | codePoint (c : CodePoint) (rest : Bytes)
  /-- An ill-formed subpart of so many bytes, and the bytes after it. -/
  | illFormed (fault : Fault) (length : Nat) (rest : Bytes)

/-- A byte that continues a sequence. -/
def isContinuation (b : UInt8) : Bool := 0x80 ≤ b && b ≤ 0xBF

/-- The bytes that may follow the first byte `b` of a sequence of three or four. -/
def secondRange (b : UInt8) : UInt8 × UInt8 :=
  if b = 0xE0 then (0xA0, 0xBF)
  else if b = 0xED then (0x80, 0x9F)
  else if b = 0xF0 then (0x90, 0xBF)
  else if b = 0xF4 then (0x80, 0x8F)
  else (0x80, 0xBF)

/-- `b` may follow `lead`. -/
def isSecond (lead b : UInt8) : Bool :=
  (secondRange lead).1 ≤ b && b ≤ (secondRange lead).2

/-- The code point with number `n`, which the well-formedness of the bytes keeps in range. -/
def codePointOf (n : Nat) : CodePoint := CodePoint.ofNat n

/-- What the bytes begin with. -/
def step : Bytes → Step
  | [] => .done
  | b :: rest =>
    if b < 0x80 then .codePoint (codePointOf b.toNat) rest
    else if b < 0xC2 then .illFormed .invalidStart 1 rest
    else if b < 0xE0 then
      match rest with
      | [] => .illFormed .truncated 1 []
      | c :: rest' =>
        if isContinuation c then
          .codePoint (codePointOf ((b.toNat - 0xC0) * 64 + (c.toNat - 0x80))) rest'
        else .illFormed .invalidContinuation 1 rest
    else if b < 0xF0 then
      match rest with
      | [] => .illFormed .truncated 1 []
      | c :: rest' =>
        if isSecond b c then
          match rest' with
          | [] => .illFormed .truncated 2 []
          | d :: rest'' =>
            if isContinuation d then
              .codePoint (codePointOf
                ((b.toNat - 0xE0) * 4096 + (c.toNat - 0x80) * 64 + (d.toNat - 0x80))) rest''
            else .illFormed .invalidContinuation 2 rest'
        else .illFormed .invalidContinuation 1 rest
    else if b < 0xF5 then
      match rest with
      | [] => .illFormed .truncated 1 []
      | c :: rest' =>
        if isSecond b c then
          match rest' with
          | [] => .illFormed .truncated 2 []
          | d :: rest'' =>
            if isContinuation d then
              match rest'' with
              | [] => .illFormed .truncated 3 []
              | e :: rest''' =>
                if isContinuation e then
                  .codePoint (codePointOf
                    ((b.toNat - 0xF0) * 262144 + (c.toNat - 0x80) * 4096
                      + (d.toNat - 0x80) * 64 + (e.toNat - 0x80))) rest'''
                else .illFormed .invalidContinuation 3 rest''
            else .illFormed .invalidContinuation 2 rest'
        else .illFormed .invalidContinuation 1 rest
    else .illFormed .invalidStart 1 rest

/-- An ill-formed subpart of a byte string. -/
structure IllFormed where
  /-- What is wrong. -/
  fault : Fault
  /-- Where the subpart begins. -/
  first : Nat
  /-- Its bytes. -/
  bytes : Bytes
deriving DecidableEq, Repr

namespace IllFormed

/-- The failure in words. -/
def message (e : IllFormed) : Text :=
  let reason : Text := match e.fault with
    | .invalidStart => "invalid start byte"
    | .invalidContinuation => "invalid continuation byte"
    | .truncated => "unexpected end of data"
  match e.bytes with
  | [b] =>
    "'utf-8' codec can't decode byte 0x" ++ hexDigits 2 b.toNat ++ " in position "
      ++ Text.ofNat e.first ++ ": " ++ reason
  | bs =>
    "'utf-8' codec can't decode bytes in position " ++ Text.ofNat e.first ++ "-"
      ++ Text.ofNat (e.first + bs.length - 1) ++ ": " ++ reason

end IllFormed

/-- Strict decoding from the position `pos` on, in front of which `done` was read, last first;
each step takes at least one byte, so `fuel` need only be the number of bytes. -/
def decodeFrom (fuel : Nat) (pos : Nat) (done : Text) (bs : Bytes) : Except IllFormed Text :=
  match fuel, step bs with
  | _, .done => .ok done.reverse
  | 0, _ => .ok done.reverse
  | fuel + 1, .codePoint c rest =>
    decodeFrom fuel (pos + (encodeCodePoint c).length) (c :: done) rest
  | _ + 1, .illFormed fault n _ => .error ⟨fault, pos, bs.take n⟩

/-- The text of well-formed bytes, or the first ill-formed subpart. -/
def decode (bs : Bytes) : Except IllFormed Text :=
  decodeFrom bs.length 0 [] bs

/-- Lossy decoding, in front of which `done` was read, last first. -/
def decodeLossyFrom (fuel : Nat) (done : Text) (bs : Bytes) : Text :=
  match fuel, step bs with
  | _, .done => done.reverse
  | 0, _ => done.reverse
  | fuel + 1, .codePoint c rest => decodeLossyFrom fuel (c :: done) rest
  | fuel + 1, .illFormed _ _ rest => decodeLossyFrom fuel (CodePoint.ofNat 0xFFFD :: done) rest

/-- The text of any bytes, U+FFFD standing for each ill-formed subpart. -/
def decodeLossy (bs : Bytes) : Text :=
  decodeLossyFrom bs.length [] bs

end Utf8

namespace Latin1

/-- One code point per byte. -/
def decode (bs : Bytes) : Text :=
  bs.map (fun b => CodePoint.ofNat b.toNat)

/-- One byte per code point, if each is below 256. -/
def encode? (t : Text) : Option Bytes :=
  t.mapM (fun c => if c.val < 256 then some c.val.toUInt8 else none)

end Latin1

end ImportClosure

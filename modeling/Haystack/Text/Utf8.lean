/-
  This file defines the reading of UTF-8 bytes. A sequence
  is refused at its first byte that cannot go on, and the
  fault says how many bytes are given up there.

  Key definitions include:
    * `Utf8Fault`
    * `Utf8.step`
    * `Utf8.decode`
-/

namespace Haystack

/-
  Bytes that are no UTF-8: `index` bytes before them are
  valid and hold `newlines` line ends. `width` counts the
  bytes given up, and is absent if the input ends inside a
  sequence.
-/
structure Utf8Fault where
  index : Nat
  newlines : Nat
  width : Option Nat
deriving DecidableEq, Repr

namespace Utf8

/- What the next bytes hold. -/
inductive Step where
| char (c : Char) (rest : List UInt8)
| invalid (width : Nat)
| incomplete
deriving DecidableEq, Repr

/- Bytes that go on a sequence. -/
def isTail (b : UInt8) : Bool :=
  0x80 ≤ b && b ≤ 0xBF

/- The six bits that a going-on byte carries. -/
def tailBits (b : UInt8) : Nat :=
  b.toNat % 64

/-
  The bytes that may come second after a leading byte: not
  those that spell a shorter sequence, a surrogate, or a
  number beyond the last code point.
-/
def isSecond
    (lead b : UInt8) : Bool :=
  if lead = 0xE0 then 0xA0 ≤ b && b ≤ 0xBF
  else if lead = 0xED then 0x80 ≤ b && b ≤ 0x9F
  else if lead = 0xF0 then 0x90 ≤ b && b ≤ 0xBF
  else if lead = 0xF4 then 0x80 ≤ b && b ≤ 0x8F
  else isTail b

/- Read one character. -/
def step
    (lead : UInt8)
    (rest : List UInt8) : Step :=
  if lead < 0x80 then .char (Char.ofNat lead.toNat) rest
  else if lead < 0xC2 then .invalid 1
  else if lead < 0xE0 then
    match rest with
    | [] => .incomplete
    | b :: rest =>
        if isTail b then
          .char
            (Char.ofNat (lead.toNat % 32 * 64 + tailBits b))
            rest
        else .invalid 1
  else if lead < 0xF0 then
    match rest with
    | [] => .incomplete
    | b :: rest =>
        if isSecond lead b then
          match rest with
          | [] => .incomplete
          | d :: rest =>
              if isTail d then
                .char
                  (Char.ofNat
                    (lead.toNat % 16 * 4096 +
                      tailBits b * 64 + tailBits d))
                  rest
              else .invalid 2
        else .invalid 1
  else if lead < 0xF5 then
    match rest with
    | [] => .incomplete
    | b :: rest =>
        if isSecond lead b then
          match rest with
          | [] => .incomplete
          | d :: rest =>
              if isTail d then
                match rest with
                | [] => .incomplete
                | e :: rest =>
                    if isTail e then
                      .char
                        (Char.ofNat
                          (lead.toNat % 8 * 262144 +
                            tailBits b * 4096 +
                            tailBits d * 64 + tailBits e))
                        rest
                    else .invalid 3
              else .invalid 2
        else .invalid 1
  else .invalid 1

/- A character leaves fewer bytes than it found. -/
theorem length_lt_of_step
    {lead : UInt8}
    {bytes rest : List UInt8}
    {c : Char}
    (h : step lead bytes = .char c rest) :
    rest.length < (lead :: bytes).length := by
  unfold step at h
  grind

/-
  The characters that the bytes spell. `index` and
  `newlines` count what is behind the bytes.
-/
def decodeFrom
    (index newlines : Nat)
    (behind : List Char) :
    List UInt8 → Except Utf8Fault (List Char)
| [] => .ok behind.reverse
| lead :: bytes =>
    match _h : step lead bytes with
    | .invalid width => .error ⟨index, newlines, some width⟩
    | .incomplete => .error ⟨index, newlines, none⟩
    | .char c rest =>
        decodeFrom
          (index + c.utf8Size)
          (if c = '\n' then newlines + 1 else newlines)
          (c :: behind)
          rest
termination_by bytes => bytes.length
decreasing_by exact length_lt_of_step _h

/- The text that the bytes spell, or their first fault. -/
def decode (bytes : List UInt8) :
    Except Utf8Fault (List Char) :=
  decodeFrom 0 0 [] bytes

end Utf8

end Haystack

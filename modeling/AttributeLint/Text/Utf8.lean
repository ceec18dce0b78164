import AttributeLint.Text.Hex

/-!
# Strict UTF-8

A sequence of bytes is read as text only if every character is written in its one proper form.
A fault names the bytes of the broken character that were still in order.
-/

namespace AttributeLint.Text.Utf8

/-- Why bytes are no text. -/
inductive Reason where
  | startByte
  | continuationByte
  | endOfData
  deriving DecidableEq, Repr

/-- A broken character: where it starts, its first byte, and how many of its bytes are in order. -/
structure Fault where
  first : UInt8
  start : Nat
  length : Nat
  reason : Reason
  deriving DecidableEq, Repr

/-- The wording of a reason. -/
def Reason.text : Reason → String
  | .startByte => "invalid start byte"
  | .continuationByte => "invalid continuation byte"
  | .endOfData => "unexpected end of data"

/-- The wording of a fault. -/
def Fault.message (f : Fault) : String :=
  let place :=
    if f.length == 1 then
      "byte 0x" ++ String.ofList (hex 2 f.first.toNat) ++ " in position " ++ toString f.start
    else
      "bytes in position " ++ toString f.start ++ "-" ++ toString (f.start + f.length - 1)
  "'utf-8' codec can't decode " ++ place ++ ": " ++ f.reason.text

/-- Bytes that go on with a character. -/
def isTail (b : UInt8) : Bool :=
  0x80 ≤ b && b ≤ 0xBF

/-- The bytes that may come second after a first byte of a longer character. -/
def isSecond (first b : UInt8) : Bool :=
  if first == 0xE0 then 0xA0 ≤ b && b ≤ 0xBF
  else if first == 0xED then 0x80 ≤ b && b ≤ 0x9F
  else if first == 0xF0 then 0x90 ≤ b && b ≤ 0xBF
  else if first == 0xF4 then 0x80 ≤ b && b ≤ 0x8F
  else isTail b

/-- The six low bits of a byte. -/
def low (b : UInt8) : Nat :=
  b.toNat % 0x40

/-- Reads bytes from a position on, after the characters `done`, the last of them first. -/
def decodeFrom (pos : Nat) (done : List Char) : List UInt8 → Except Fault (List Char)
  | [] => .ok done.reverse
  | a :: rest =>
    let fault (length : Nat) (reason : Reason) : Except Fault (List Char) :=
      .error ⟨a, pos, length, reason⟩
    if a < 0x80 then decodeFrom (pos + 1) (Char.ofNat a.toNat :: done) rest
    else if a < 0xC2 || 0xF4 < a then fault 1 .startByte
    else match rest with
      | [] => fault 1 .endOfData
      | b :: rest =>
        if !isSecond a b then fault 1 .continuationByte
        else if a < 0xE0 then
          decodeFrom (pos + 2) (Char.ofNat (a.toNat % 0x20 * 0x40 + low b) :: done) rest
        else match rest with
          | [] => fault 2 .endOfData
          | c :: rest =>
            if !isTail c then fault 2 .continuationByte
            else if a < 0xF0 then
              decodeFrom (pos + 3)
                (Char.ofNat ((a.toNat % 0x10 * 0x40 + low b) * 0x40 + low c) :: done) rest
            else match rest with
              | [] => fault 3 .endOfData
              | d :: rest =>
                if !isTail d then fault 3 .continuationByte
                else decodeFrom (pos + 4)
                  (Char.ofNat (((a.toNat % 0x08 * 0x40 + low b) * 0x40 + low c) * 0x40 + low d) ::
                    done) rest

/-- Reads bytes as text. -/
def decode (bytes : List UInt8) : Except Fault (List Char) :=
  decodeFrom 0 [] bytes

end AttributeLint.Text.Utf8

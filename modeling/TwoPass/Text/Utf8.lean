import TwoPass.Text.Basic

/-! UTF-8, read strictly: what is not the shortest form of a scalar value is refused, together with
the place and the reason. -/

set_option autoImplicit false

namespace TwoPass.Utf8

inductive Reason where
  | invalidStart
  | invalidContinuation
  | unexpectedEnd
  deriving DecidableEq, Repr

def Reason.text : Reason → Text
  | .invalidStart => "invalid start byte"
  | .invalidContinuation => "invalid continuation byte"
  | .unexpectedEnd => "unexpected end of data"

/-- Bytes that begin no character: the first of them, its position, how many they are, and why. -/
structure Fault where
  byte : UInt8
  position : Nat
  length : Nat
  reason : Reason
  deriving DecidableEq, Repr

def Fault.message (fault : Fault) : Text :=
  let digits (n : Nat) : Text := Nat.toDigits 10 n
  let place : Text :=
    if fault.length == 1 then
      "byte 0x" ++ (Nat.toDigits 16 fault.byte.toNat).leftpad 2 '0' ++ " in position " ++
        digits fault.position
    else
      "bytes in position " ++ digits fault.position ++ "-" ++
        digits (fault.position + fault.length - 1)
  "'utf-8' codec can't decode " ++ place ++ ": " ++ fault.reason.text

def isContinuation (byte : UInt8) : Bool := 0x80 ≤ byte && byte ≤ 0xBF

def isSecondOfThree (first second : UInt8) : Bool :=
  if first == 0xE0 then 0xA0 ≤ second && second ≤ 0xBF
  else if first == 0xED then 0x80 ≤ second && second ≤ 0x9F
  else isContinuation second

def isSecondOfFour (first second : UInt8) : Bool :=
  if first == 0xF0 then 0x90 ≤ second && second ≤ 0xBF
  else if first == 0xF4 then 0x80 ≤ second && second ≤ 0x8F
  else isContinuation second

def low6 (byte : UInt8) : Nat := byte.toNat % 0x40

def decodeFrom (position : Nat) : List UInt8 → Except Fault Text
  | [] => .ok []
  | a :: rest =>
    let fail (length : Nat) (reason : Reason) : Except Fault Text :=
      .error ⟨a, position, length, reason⟩
    if a < 0x80 then (Char.ofNat a.toNat :: ·) <$> decodeFrom (position + 1) rest
    else if 0xC2 ≤ a && a ≤ 0xDF then
      match rest with
      | [] => fail 1 .unexpectedEnd
      | b :: rest =>
        if !isContinuation b then fail 1 .invalidContinuation
        else (Char.ofNat (a.toNat % 0x20 * 0x40 + low6 b) :: ·) <$> decodeFrom (position + 2) rest
    else if 0xE0 ≤ a && a ≤ 0xEF then
      match rest with
      | [] => fail 1 .unexpectedEnd
      | b :: rest =>
        if !isSecondOfThree a b then fail 1 .invalidContinuation
        else match rest with
          | [] => fail 2 .unexpectedEnd
          | c :: rest =>
            if !isContinuation c then fail 2 .invalidContinuation
            else (Char.ofNat (a.toNat % 0x10 * 0x1000 + low6 b * 0x40 + low6 c) :: ·) <$>
              decodeFrom (position + 3) rest
    else if 0xF0 ≤ a && a ≤ 0xF4 then
      match rest with
      | [] => fail 1 .unexpectedEnd
      | b :: rest =>
        if !isSecondOfFour a b then fail 1 .invalidContinuation
        else match rest with
          | [] => fail 2 .unexpectedEnd
          | c :: rest =>
            if !isContinuation c then fail 2 .invalidContinuation
            else match rest with
              | [] => fail 3 .unexpectedEnd
              | d :: rest =>
                if !isContinuation d then fail 3 .invalidContinuation
                else (Char.ofNat (a.toNat % 0x8 * 0x40000 + low6 b * 0x1000 + low6 c * 0x40 + low6 d)
                  :: ·) <$> decodeFrom (position + 4) rest
    else fail 1 .invalidStart

def decode (bytes : List UInt8) : Except Fault Text := decodeFrom 0 bytes

def encode (text : Text) : List UInt8 := text.flatMap String.utf8EncodeChar

end TwoPass.Utf8

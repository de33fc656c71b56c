/-
Text from bytes.

`utf8Chars` cuts bytes into characters. Where bytes form no character, the longest
run that could have started one is passed over and stands as nothing.
-/

namespace FlagGovernance.Text

/-- The byte continues a character that has begun. -/
def isContinuation (b : Nat) : Bool := 0x80 ≤ b && b < 0xC0

/-- How many bytes follow a first byte, and the range of the next one; nothing for
a byte that starts no longer character. -/
def leadByte? (b : Nat) : Option (Nat × Nat × Nat) :=
  if 0xC2 ≤ b && b < 0xE0 then some (1, 0x80, 0xBF)
  else if b == 0xE0 then some (2, 0xA0, 0xBF)
  else if b == 0xED then some (2, 0x80, 0x9F)
  else if 0xE1 ≤ b && b < 0xF0 then some (2, 0x80, 0xBF)
  else if b == 0xF0 then some (3, 0x90, 0xBF)
  else if 0xF1 ≤ b && b < 0xF4 then some (3, 0x80, 0xBF)
  else if b == 0xF4 then some (3, 0x80, 0x8F)
  else none

/-- Characters of bytes, one result for each character or faulty run. -/
def utf8Chars : List Nat → List (Option Char)
  | [] => []
  | b :: rest =>
    if b < 0x80 then some (Char.ofNat b) :: utf8Chars rest
    else
      match leadByte? b with
      | none => none :: utf8Chars rest
      | some (more, low, high) =>
        match rest with
        | c :: rest₁ =>
          if low ≤ c && c ≤ high then
            if more == 1 then some (Char.ofNat ((b - 0xC0) * 64 + (c - 0x80))) :: utf8Chars rest₁
            else
              match rest₁ with
              | d :: rest₂ =>
                if isContinuation d then
                  if more == 2 then
                    some (Char.ofNat (((b - 0xE0) * 64 + (c - 0x80)) * 64 + (d - 0x80))) ::
                      utf8Chars rest₂
                  else
                    match rest₂ with
                    | e :: rest₃ =>
                      if isContinuation e then
                        some (Char.ofNat ((((b - 0xF0) * 64 + (c - 0x80)) * 64 + (d - 0x80)) * 64 +
                          (e - 0x80))) :: utf8Chars rest₃
                      else none :: utf8Chars (e :: rest₃)
                    | [] => [none]
                else none :: utf8Chars (d :: rest₂)
              | [] => [none]
          else none :: utf8Chars (c :: rest₁)
        | [] => [none]

/-- The text of bytes, if all of them form characters. -/
def ofUtf8? (bytes : List Nat) : Option String :=
  ((utf8Chars bytes).mapM id).map String.ofList

/-- The text of bytes, with a replacement character for each faulty run. -/
def ofUtf8Lossy (bytes : List Nat) : String :=
  String.ofList ((utf8Chars bytes).map (fun c => c.getD '\ufffd'))

/-- The bytes of a text. -/
def utf8Bytes (text : String) : List Nat :=
  text.toUTF8.toList.map UInt8.toNat

end FlagGovernance.Text

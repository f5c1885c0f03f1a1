import LineSum.Text.Units

/-!
# Text as bytes

Text is stored in files as UTF-8, and may stand for bytes in base 64.
-/

namespace LineSum

/-! ## UTF-8

Files are read as UTF-8. Bytes that belong to no character are replaced by U+FFFD, one for each
longest beginning of a character.
-/

/-- The bytes of a character. -/
def encodeUtf8 (c : Char) : List Nat :=
  let n := c.toNat
  if n < 0x80 then [n]
  else if n < 0x800 then [0xC0 + n / 0x40, 0x80 + n % 0x40]
  else if n < 0x10000 then [0xE0 + n / 0x1000, 0x80 + n / 0x40 % 0x40, 0x80 + n % 0x40]
  else
    [0xF0 + n / 0x40000, 0x80 + n / 0x1000 % 0x40, 0x80 + n / 0x40 % 0x40, 0x80 + n % 0x40]

/-- What a first byte announces: how many bytes follow, the bits it gives, and the least and the
greatest second byte. -/
structure LeadByte where
  following : Nat
  bits : Nat
  least : Nat
  greatest : Nat

/-- What a byte announces as the first one of a character. Overlong forms, surrogates and what is
beyond the last character are excluded by the range of the second byte. -/
def leadByte? (b : Nat) : Option LeadByte :=
  if b < 0x80 then some ⟨0, b, 0x80, 0xBF⟩
  else if 0xC2 ≤ b && b ≤ 0xDF then some ⟨1, b - 0xC0, 0x80, 0xBF⟩
  else if b = 0xE0 then some ⟨2, 0, 0xA0, 0xBF⟩
  else if b = 0xED then some ⟨2, 0xD, 0x80, 0x9F⟩
  else if 0xE1 ≤ b && b ≤ 0xEF then some ⟨2, b - 0xE0, 0x80, 0xBF⟩
  else if b = 0xF0 then some ⟨3, 0, 0x90, 0xBF⟩
  else if 0xF1 ≤ b && b ≤ 0xF3 then some ⟨3, b - 0xF0, 0x80, 0xBF⟩
  else if b = 0xF4 then some ⟨3, 4, 0x80, 0x8F⟩
  else none

/-- Reads the bytes that follow a first one: how many of them fit, and the code point if all do. -/
def followingBytes (count bits least greatest : Nat) : List Nat → Nat × Option Nat
  | rest =>
    match count with
    | 0 => (0, some bits)
    | count + 1 =>
      match rest with
      | [] => (0, none)
      | b :: rest =>
        if least ≤ b && b ≤ greatest then
          let (n, code) := followingBytes count (bits * 0x40 + (b - 0x80)) 0x80 0xBF rest
          (n + 1, code)
        else (0, none)

/-- Reads bytes as characters; `none` stands for bytes that belong to no character. -/
def readUtf8 (bytes : List Nat) : List (Option Char) :=
  match bytes with
  | [] => []
  | b :: rest =>
    match leadByte? b with
    | none => none :: readUtf8 rest
    | some lead =>
      let (n, code) := followingBytes lead.following lead.bits lead.least lead.greatest rest
      code.map Char.ofNat :: readUtf8 (rest.drop n)
termination_by bytes.length
decreasing_by all_goals simp only [List.length_cons, List.length_drop]; omega

/-- The text of bytes, if all of them belong to characters. -/
def decodeUtf8? (bytes : List Nat) : Option String :=
  let chars := readUtf8 bytes
  if chars.all Option.isSome then some (String.ofList (chars.filterMap id)) else none

/-- The text of bytes. -/
def decodeUtf8 (bytes : List Nat) : String :=
  String.ofList ((readUtf8 bytes).map fun c => c.getD '\ufffd')

/-! ## Base 64

Bytes are written with sixty-four characters, six bits by each. Reading takes the two signs of the
variant for file names as well, ends at an equals sign, and passes over everything else.
-/

/-- The six bits that a character stands for. -/
def base64Value? (c : Char) : Option Nat :=
  if 'A' ≤ c && c ≤ 'Z' then some (c.toNat - 'A'.toNat)
  else if 'a' ≤ c && c ≤ 'z' then some (c.toNat - 'a'.toNat + 26)
  else if '0' ≤ c && c ≤ '9' then some (c.toNat - '0'.toNat + 52)
  else if c = '+' || c = '-' then some 62
  else if c = '/' || c = '_' then some 63
  else none

/-- The character for six bits. -/
def base64Char (n : Nat) : Char :=
  if n < 26 then Char.ofNat ('A'.toNat + n)
  else if n < 52 then Char.ofNat ('a'.toNat + (n - 26))
  else if n < 62 then Char.ofNat ('0'.toNat + (n - 52))
  else if n = 62 then '+'
  else '/'

/-- The bytes that groups of six bits make up. Bits that are left over are dropped. -/
def bytesOfSixes : List Nat → List Nat
  | a :: b :: c :: d :: rest =>
    (a * 4 + b / 16) :: (b % 16 * 16 + c / 4) :: (c % 4 * 64 + d) :: bytesOfSixes rest
  | [a, b, c] => [a * 4 + b / 16, b % 16 * 16 + c / 4]
  | [a, b] => [a * 4 + b / 16]
  | _ => []

/-- The bytes that a text stands for. Of each 16-bit unit only the lower half counts. -/
def decodeBase64 (text : List Char) : List Nat :=
  let chars := (units text).map fun unit => Char.ofNat (unit % 256)
  bytesOfSixes ((chars.takeWhile (· != '=')).filterMap base64Value?)

/-- The text for bytes, filled up with equals signs to groups of four characters. -/
def encodeBase64 : List Nat → List Char
  | a :: b :: c :: rest =>
    base64Char (a / 4) :: base64Char (a % 4 * 16 + b / 16) ::
      base64Char (b % 16 * 4 + c / 64) :: base64Char (c % 64) :: encodeBase64 rest
  | [a, b] =>
    [base64Char (a / 4), base64Char (a % 4 * 16 + b / 16), base64Char (b % 16 * 4), '=']
  | [a] => [base64Char (a / 4), base64Char (a % 4 * 16), '=', '=']
  | [] => []

end LineSum

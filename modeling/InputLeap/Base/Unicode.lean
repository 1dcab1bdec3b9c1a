import InputLeap.Lib.BigEndian
import InputLeap.Lib.PrefixCode
import Mathlib.Data.List.GetD

/-! Conversions between UTF-8 and the wide encodings of Unicode. A string is its bytes; the words of wide strings are in
the order of bytes of the host. A conversion returns its bytes and whether an error was set. -/

namespace InputLeap.Unicode

open InputLeap.Lib

abbrev Bytes : Type := List UInt8

def s_invalid : ℕ := 0x0000ffff

def s_replacement : ℕ := 0x0000fffd

section FromUTF8

def byteAt (data : Bytes) (i : ℕ) : ℕ := (data.getD i 0).toNat

def encodingLength (b : ℕ) : Option ℕ :=
  if b < 0x80 then some 1
  else if b < 0xc0 then none
  else if b < 0xe0 then some 2
  else if b < 0xf0 then some 3
  else if b < 0xf8 then some 4
  else if b < 0xfc then some 5
  else if b < 0xfe then some 6
  else none

def extract (data : Bytes) : ℕ → ℕ
  | 1 => byteAt data 0
  | 2 => (byteAt data 0 &&& 0x1f) <<< 6 ||| (byteAt data 1 &&& 0x3f)
  | 3 => (byteAt data 0 &&& 0x0f) <<< 12 ||| (byteAt data 1 &&& 0x3f) <<< 6 ||| (byteAt data 2 &&& 0x3f)
  | 4 =>
    (byteAt data 0 &&& 0x07) <<< 18 ||| (byteAt data 1 &&& 0x3f) <<< 12 ||| (byteAt data 2 &&& 0x3f) <<< 6 |||
      (byteAt data 3 &&& 0x3f)
  | 5 =>
    (byteAt data 0 &&& 0x03) <<< 24 ||| (byteAt data 1 &&& 0x3f) <<< 18 ||| (byteAt data 2 &&& 0x3f) <<< 12 |||
      (byteAt data 3 &&& 0x3f) <<< 6 ||| (byteAt data 4 &&& 0x3f)
  | 6 =>
    (byteAt data 0 &&& 0x01) <<< 30 ||| (byteAt data 1 &&& 0x3f) <<< 24 ||| (byteAt data 2 &&& 0x3f) <<< 18 |||
      (byteAt data 3 &&& 0x3f) <<< 12 ||| (byteAt data 4 &&& 0x3f) <<< 6 ||| (byteAt data 5 &&& 0x3f)
  | _ => s_invalid

/-- The cases that fall through from the last byte to the second: the size, and whether the sequence is truncated. -/
def truncate (data : Bytes) : ℕ → ℕ × Bool → ℕ × Bool
  | 0, result => result
  | i + 1, result => truncate data i (if byteAt data (i + 1) &&& 0xc0 ≠ 0x80 then (i + 1, true) else result)

def s_minChar : ℕ → ℕ
  | 2 => 0x00000080
  | 3 => 0x00000800
  | 4 => 0x00010000
  | 5 => 0x00200000
  | 6 => 0x04000000
  | _ => 0

def fromUTF8 (data : Bytes) : ℕ × Bytes :=
  match encodingLength (byteAt data 0) with
  | none => (s_invalid, data.tail)
  | some size =>
    if size > data.length then (s_invalid, [])
    else
      let c := extract data size
      let (size, truncated) := truncate data (size - 1) (size, false)
      if truncated then (s_invalid, data.drop size)
      else if c < s_minChar size then (s_invalid, data.drop size)
      else if 0x0000d800 ≤ c ∧ c ≤ 0x0000dfff then (s_invalid, data.drop size)
      else if 0x0000fffe ≤ c ∧ c ≤ 0x0000ffff then (s_invalid, data.drop size)
      else (c, data.drop size)

/-- `n` bounds the passes of the loop, each of which takes a byte. -/
def isUTF8From : ℕ → Bytes → Bool
  | 0, _ => true
  | _ + 1, [] => true
  | n + 1, b :: data => if (fromUTF8 (b :: data)).1 = s_invalid then false else isUTF8From n (fromUTF8 (b :: data)).2

def isUTF8 (src : Bytes) : Bool := isUTF8From src.length src

def chars (src : Bytes) : List ℕ := repeatNext fromUTF8 src.length src

end FromUTF8

section ToUTF8

def encode (c : ℕ) : Bytes :=
  if c < 0x00000080 then [UInt8.ofNat c]
  else if c < 0x00000800 then
    [UInt8.ofNat ((c >>> 6 &&& 0x1f) + 0xc0), UInt8.ofNat ((c &&& 0x3f) + 0x80)]
  else if c < 0x00010000 then
    [UInt8.ofNat ((c >>> 12 &&& 0x0f) + 0xe0), UInt8.ofNat ((c >>> 6 &&& 0x3f) + 0x80),
      UInt8.ofNat ((c &&& 0x3f) + 0x80)]
  else if c < 0x00200000 then
    [UInt8.ofNat ((c >>> 18 &&& 0x07) + 0xf0), UInt8.ofNat ((c >>> 12 &&& 0x3f) + 0x80),
      UInt8.ofNat ((c >>> 6 &&& 0x3f) + 0x80), UInt8.ofNat ((c &&& 0x3f) + 0x80)]
  else if c < 0x04000000 then
    [UInt8.ofNat ((c >>> 24 &&& 0x03) + 0xf8), UInt8.ofNat ((c >>> 18 &&& 0x3f) + 0x80),
      UInt8.ofNat ((c >>> 12 &&& 0x3f) + 0x80), UInt8.ofNat ((c >>> 6 &&& 0x3f) + 0x80),
      UInt8.ofNat ((c &&& 0x3f) + 0x80)]
  else if c < 0x80000000 then
    [UInt8.ofNat ((c >>> 30 &&& 0x01) + 0xfc), UInt8.ofNat ((c >>> 24 &&& 0x3f) + 0x80),
      UInt8.ofNat ((c >>> 18 &&& 0x3f) + 0x80), UInt8.ofNat ((c >>> 12 &&& 0x3f) + 0x80),
      UInt8.ofNat ((c >>> 6 &&& 0x3f) + 0x80), UInt8.ofNat ((c &&& 0x3f) + 0x80)]
  else []

/-- The bytes of a character, and whether it was outside the range and replaced. -/
def toUTF8 (c : ℕ) : Bytes × Bool :=
  if (0x0000d800 ≤ c ∧ c ≤ 0x0000dfff) ∨ c ≥ 0x80000000 then (encode s_replacement, true) else (encode c, false)

end ToUTF8

section Wide

-- whether the host stores the most significant byte first
variable (big : Bool)

/-- A word of `size` bytes in the order of the host. -/
def wordBytes (size c : ℕ) : Bytes := if big then BigEndian.encode size c else (BigEndian.encode size c).reverse

/-- `decode16` and `decode32`: the first word of the data. -/
def decodeWord (size : ℕ) (data : Bytes) (byteSwapped : Bool) : ℕ :=
  BigEndian.decode (if big = byteSwapped then (data.take size).reverse else data.take size)

/-- Conversions one after the other; an error of any of them is set. -/
def joined (parts : List (Bytes × Bool)) : Bytes × Bool := (parts.flatMap Prod.fst, parts.any Prod.snd)

def utf8ToUCS4 (src : Bytes) : Bytes × Bool :=
  joined <| (chars src).map fun c =>
    let c := if c = s_invalid then s_replacement else c
    (wordBytes big 4 c, false)

def utf16OfChar (c : ℕ) : Bytes :=
  if c < 0x00010000 then wordBytes big 2 c
  else
    let c := c - 0x00010000
    wordBytes big 2 ((c >>> 10) + 0xd800) ++ wordBytes big 2 ((c &&& 0x03ff) + 0xdc00)

def utf8ToUTF16 (src : Bytes) : Bytes × Bool :=
  joined <| (chars src).map fun c =>
    if c = s_invalid then (utf16OfChar big s_replacement, false)
    else if c ≥ 0x00110000 then (utf16OfChar big s_replacement, true)
    else (utf16OfChar big c, false)

def utf8ToUTF32 (src : Bytes) : Bytes × Bool :=
  joined <| (chars src).map fun c =>
    if c = s_invalid then (wordBytes big 4 s_replacement, false)
    else if c ≥ 0x00110000 then (wordBytes big 4 s_replacement, true)
    else (wordBytes big 4 c, false)

/-- Whether the words are swapped, and the data and the number of words behind a mark of the byte order. -/
def skipMark (size : ℕ) (data : Bytes) (n : ℕ) : Bool × Bytes × ℕ :=
  if n ≥ 1 then
    if decodeWord big size data false = 0x0000feff then (false, data.drop size, n - 1)
    else if decodeWord big size data false = 0x0000fffe then (true, data.drop size, n - 1)
    else (false, data, n)
  else (false, data, n)

def decodeWords (size : ℕ) (byteSwapped : Bool) : ℕ → Bytes → List ℕ
  | 0, _ => []
  | n + 1, data => decodeWord big size data byteSwapped :: decodeWords size byteSwapped n (data.drop size)

/-- The words that a conversion goes through; their number is computed in 32 bits. -/
def wordsOf (size : ℕ) (src : Bytes) : List ℕ :=
  let n := src.length % 2 ^ 32 / size
  let (byteSwapped, data, n) := skipMark big size src n
  decodeWords big size byteSwapped n data

def ucs2ToUTF8 (src : Bytes) : Bytes × Bool := joined ((wordsOf big 2 src).map toUTF8)

def ucs4ToUTF8 (src : Bytes) : Bytes × Bool := joined ((wordsOf big 4 src).map toUTF8)

def unpaired : Bytes × Bool := ((toUTF8 s_replacement).1, true)

def convertUTF16 : List ℕ → List (Bytes × Bool)
  | [] => []
  | [c] => if c < 0x0000d800 ∨ c > 0x0000dfff then [toUTF8 c] else [unpaired]
  | c :: c2 :: words =>
    if c < 0x0000d800 ∨ c > 0x0000dfff then toUTF8 c :: convertUTF16 (c2 :: words)
    else if 0x0000d800 ≤ c ∧ c ≤ 0x0000dbff then
      (if c2 < 0x0000dc00 ∨ c2 > 0x0000dfff then unpaired
        else toUTF8 (((c - 0x0000d800) <<< 10 ||| (c2 - 0x0000dc00)) + 0x00010000)) :: convertUTF16 words
    else unpaired :: convertUTF16 (c2 :: words)

def utf16ToUTF8 (src : Bytes) : Bytes × Bool := joined (convertUTF16 (wordsOf big 2 src))

def utf32ToUTF8 (src : Bytes) : Bytes × Bool :=
  joined <| (wordsOf big 4 src).map fun c => if c ≥ 0x00110000 then ((toUTF8 s_replacement).1, true) else toUTF8 c

end Wide

end InputLeap.Unicode

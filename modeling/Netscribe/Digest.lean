import Netscribe.Digest.Xxh3
/-!
# Content digests

Every emitted module carries the digest of its text, so that two runs can be compared without
comparing files.

* `Digest` — sixteen bytes.
* `Digest.ofBytes`, `Digest.ofLines` — the digest of bytes, and of lines joined by line feeds.
* `Digest.text` — the 32 hexadecimal digits shown to the user.
-/

namespace Netscribe

/-- A digest of 128 bits, as its two words. -/
structure Digest where
  /-- The low word, whose bytes are written first. -/
  low : UInt64
  high : UInt64
  deriving DecidableEq

namespace Digest

/-- The digest of a sequence of bytes. -/
def ofBytes (data : ByteArray) : Digest :=
  let d := Xxh3.digest data
  ⟨d.low, d.high⟩

/-- **The digest of lines** is that of the text in which line feeds join them. -/
def ofLines (lines : List String) : Digest :=
  ofBytes (String.intercalate "\n" lines).toUTF8

/-- The eight bytes of a word, lowest first. -/
def wordBytes (word : UInt64) : List UInt8 :=
  (List.range 8).map fun k => (word >>> UInt64.ofNat (8 * k)).toUInt8

/-- The sixteen bytes in the order they are written. -/
def bytes (d : Digest) : List UInt8 :=
  wordBytes d.low ++ wordBytes d.high

/-- The two lower-case hexadecimal digits of a byte. -/
def hexByte (b : UInt8) : List Char :=
  [Nat.digitChar (b.toNat / 16), Nat.digitChar (b.toNat % 16)]

/-- The 32 hexadecimal digits of a digest. -/
def text (d : Digest) : String :=
  String.ofList (d.bytes.flatMap hexByte)

/-- The short form for logs: the first two bytes only. -/
def shortText (d : Digest) : String :=
  "ContentHash(" ++ String.ofList ((d.bytes.take 2).flatMap hexByte) ++ "..)"

end Digest

end Netscribe

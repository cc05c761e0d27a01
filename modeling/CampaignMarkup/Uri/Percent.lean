import CampaignMarkup.Text.Number

/-! # Percent encoding

A character that may not stand for itself in some part of a URI is written as the bytes of its
UTF-8 form, each byte as `%` and two hexadecimal digits. Which characters these are depends on the
part.
-/
namespace CampaignMarkup.Uri

def hexDigit (n : Nat) : Char :=
  if n < 10 then Char.ofNat (48 + n) else Char.ofNat (55 + n)

def encodeByte (b : UInt8) : List Char :=
  ['%', hexDigit (b.toNat / 16), hexDigit (b.toNat % 16)]

/-- Control characters and everything beyond ASCII are encoded in every part. -/
def isControl (c : Char) : Bool :=
  c.toNat < 0x20 || 0x7E < c.toNat

/-- Characters that may not stand in a fragment. -/
def isReservedInFragment (c : Char) : Bool :=
  isControl c || " \"<>`".toList.contains c

/-- Characters that may not stand in a path. -/
def isReservedInPath (c : Char) : Bool :=
  isReservedInFragment c || "#?\x7b\x7d".toList.contains c

/-- Characters that may not stand in one segment of a file's path. -/
def isReservedInSegment (c : Char) : Bool :=
  isReservedInPath c || "/%\\".toList.contains c

/-- Characters that may not stand in the name of a user. -/
def isReservedInUserinfo (c : Char) : Bool :=
  isReservedInPath c || "/:;=@[\\]^|".toList.contains c

/-- Characters that may not stand in a query. -/
def isReservedInQuery (c : Char) : Bool :=
  isControl c || " \"#<>".toList.contains c

def encodeChar (reserved : Char → Bool) (c : Char) : List Char :=
  if reserved c then (String.singleton c).toUTF8.toList.flatMap encodeByte else [c]

def encode (reserved : Char → Bool) (cs : List Char) : List Char :=
  cs.flatMap (encodeChar reserved)

/-- The bytes a percent-encoded text stands for; a `%` without two digits stands for itself. -/
def decodeBytes : List Char → List UInt8
  | '%' :: a :: b :: cs =>
    match Chars.hexValue? a, Chars.hexValue? b with
    | some x, some y => UInt8.ofNat (16 * x + y) :: decodeBytes cs
    | _, _ => '%'.toUInt8 :: decodeBytes (a :: b :: cs)
  | c :: cs => (String.singleton c).toUTF8.toList ++ decodeBytes cs
  | [] => []

/-- The text a percent-encoded text stands for, if its bytes are one. -/
def decode? (cs : List Char) : Option (List Char) :=
  (String.fromUTF8? ⟨(decodeBytes cs).toArray⟩).map String.toList

end CampaignMarkup.Uri

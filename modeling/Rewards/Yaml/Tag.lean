/-
Tags: names for what the nodes of a document are.

A tag is made of octets and not of characters, since what is escaped in it are octets,
and those need not spell out any text.  It ends before the first octet that is zero.
A tag that starts with an exclamation mark is one of the document's own; of the others
only the standard ones have a meaning.
-/

namespace Rewards.Yaml

/-- A tag. -/
structure Tag where
  octets : List UInt8
deriving DecidableEq

namespace Tag

/-- The octets of characters of ASCII. -/
def octetsOf (ascii : List Char) : List UInt8 :=
  ascii.map fun c => UInt8.ofNat c.toNat

/-- The tag that ends before the first zero of some octets. -/
def ofOctets (octets : List UInt8) : Tag :=
  ⟨octets.takeWhile (· ≠ 0)⟩

/-- The tag that a text of ASCII is. -/
def ofText (ascii : String) : Tag :=
  ofOctets (octetsOf ascii.toList)

/-- The tag that is an exclamation mark and nothing else. -/
def bare : Tag :=
  ofText "!"

/-- The standard tag of a name. -/
def standard (name : String) : Tag :=
  ofText ("tag:yaml.org,2002:" ++ name)

/-- Whether nothing is left of a tag. -/
def isEmpty (tag : Tag) : Bool :=
  tag.octets.isEmpty

/-- A tag with another one behind it. -/
def append (start rest : Tag) : Tag :=
  ⟨start.octets ++ rest.octets⟩

/-- The octets after the exclamation mark that a tag starts with. -/
def afterMark? (tag : Tag) : Option (List UInt8) :=
  match tag.octets with
  | mark :: rest => if bare.octets = [mark] then some rest else none
  | [] => none

/-- Whether a tag is one of the document's own and text. -/
def isLocal (tag : Tag) : Bool :=
  tag.afterMark?.any fun rest => (String.fromUTF8? ⟨rest.toArray⟩).isSome

/-! ### Percent escapes -/

/-- How many octets a character has in UTF-8 if this is the first of them. -/
def width? (lead : UInt8) : Option Nat :=
  if lead < 0x80 then some 1
  else if lead < 0xc0 then none
  else if lead < 0xe0 then some 2
  else if lead < 0xf0 then some 3
  else if lead < 0xf8 then some 4
  else none

/-- Whether an octet continues a character in UTF-8. -/
def continues (octet : UInt8) : Bool :=
  0x80 ≤ octet && octet < 0xc0

end Tag

end Rewards.Yaml

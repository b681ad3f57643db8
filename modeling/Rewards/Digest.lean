/-
Digests: the thirty-two bytes that a hash function returns.

Their length is part of the type.  Nothing else is assumed of the function they
come from: what is proved of identities and of payment trees holds for every
function from bytes to digests.
-/
import Rewards.Text.Hex

namespace Rewards

/-- Thirty-two bytes. -/
structure Digest where
  /-- The bytes, the most significant first. -/
  bytes : List UInt8
  /-- There are thirty-two. -/
  length_eq : bytes.length = 32
deriving DecidableEq

namespace Digest

/-- The digest of `bytes` if there are thirty-two of them. -/
def ofBytes? (bytes : List UInt8) : Option Digest :=
  if h : bytes.length = 32 then some ⟨bytes, h⟩ else none

/-- Sixty-four lower-case hexadecimal digits. -/
def hex (d : Digest) : String :=
  String.ofList (Hex.encode d.bytes)

/-- The digest that a text of sixty-four hexadecimal digits of either case names. -/
def ofHex? (text : String) : Option Digest :=
  (Hex.decode text.toList).bind ofBytes?

/-- The lesser of two digests in the order of their bytes. -/
def least (a b : Digest) : Digest :=
  if b.bytes < a.bytes then b else a

/-- The greater of two digests in the order of their bytes. -/
def greatest (a b : Digest) : Digest :=
  if b.bytes < a.bytes then a else b

end Digest

end Rewards

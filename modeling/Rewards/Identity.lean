/-
Identities: digests that tell configurations apart.

The core parameters and the user-defined parameters are digested separately, each as
its canonical text, and the digest of the two hexadecimal digests one after the
other identifies the rule.  The functions take the digest they use as an argument;
the program's own identities use SHA-256.
-/
import Rewards.Digest.Sha256
import Rewards.Parameters
import Rewards.Typed

namespace Rewards

/-- The digests that identify a configured rule. -/
structure RuleIdentity where
  coreHash : String
  userDefinedHash : String
  ruleHash : String
deriving DecidableEq

namespace Identity

/-- The UTF-8 bytes of a text. -/
def utf8 (text : String) : List UInt8 :=
  text.toUTF8.toList

variable (digest : List UInt8 → Digest)

/-- The digest of a text in hexadecimal. -/
def textHash (text : String) : String :=
  (digest (utf8 text)).hex

/-- The digest of the canonical text of a value. -/
def valueHash (v : Typed) : Outcome String := do
  return textHash digest (← v.canonical)

/-- The digest of the core parameters. -/
def coreHash (core : CoreParameters) : Outcome String :=
  valueHash digest (.ofJson core.toJson)

/-- The digest of two digests in hexadecimal, one after the other. -/
def ruleHash (coreHash userDefinedHash : String) : String :=
  textHash digest (coreHash ++ userDefinedHash)

/-- The identity of core parameters and a digest of user-defined ones. -/
def ofCore (core : CoreParameters) (userDefinedHash : String) : Outcome RuleIdentity := do
  let coreHash ← coreHash digest core
  return ⟨coreHash, userDefinedHash, ruleHash digest coreHash userDefinedHash⟩

end Identity

namespace RuleIdentity

/-- An identity as a JSON object. -/
def toJson (i : RuleIdentity) : Json :=
  .object
    [("core_hash", .text i.coreHash),
     ("user_defined_hash", .text i.userDefinedHash),
     ("rule_hash", .text i.ruleHash)]

open Shape

/-- An identity read from its fields. -/
def read {m : Type → Type} [Monad m] {ν : Type} [Source m ν] : ν → m RuleIdentity :=
  record "RuleIdentity" .lenient
    (mk <$> Fields.required "core_hash" Source.text
      <*> Fields.required "user_defined_hash" Source.text
      <*> Fields.required "rule_hash" Source.text)

end RuleIdentity

end Rewards

/-
Payment trees: one digest for a list of payments, and proofs that a payment is in it.

A leaf is the digest of a zero byte and the canonical text of a payment.  A node is
the digest of a one byte and its two children, the lesser child first, so it does not
matter which of the two stands left.  The nodes of a level are joined in pairs, and a
node that is left over moves up as it is.  The last level is the root alone; without
payments the root is the digest of no bytes.

A proof of a payment is the list of the siblings on the way up.  Checking it starts at
the leaf and joins it with one sibling after the other.

The functions take the digest that they use as an argument.
-/
import Rewards.Identity
import Rewards.Payment
import Rewards.Word

namespace Rewards

namespace PaymentTree

variable (digest : List UInt8 → Digest)

/-! ### Nodes -/

/-- The byte before the text of a payment. -/
def leafMark : UInt8 := 0

/-- The byte before two children. -/
def nodeMark : UInt8 := 1

/-- The bytes whose digest is the leaf of a payment. -/
def leafBytes (p : PaymentRecord) : Outcome (List UInt8) := do
  return leafMark :: Identity.utf8 (← (Typed.ofJson p.toJson).canonical)

/-- The leaf of a payment. -/
def leaf (p : PaymentRecord) : Outcome Digest := do
  return digest (← leafBytes p)

/-- The bytes whose digest is the parent of two nodes. -/
def parentBytes (a b : Digest) : List UInt8 :=
  nodeMark :: (a.least b).bytes ++ (a.greatest b).bytes

/-- The parent of two nodes. -/
def parent (a b : Digest) : Digest :=
  digest (parentBytes a b)

/-! ### Levels -/

/-- The level above a level. -/
def above : List Digest → List Digest
  | a :: b :: rest => parent digest a b :: above rest
  | rest => rest

theorem length_above (level : List Digest) :
    (above digest level).length = (level.length + 1) / 2 := by
  fun_induction above digest level with
  | case1 a b rest ih => simp only [List.length_cons, ih]; omega
  | case2 rest h =>
    match rest, h with
    | [], _ => rfl
    | [_], _ => simp
    | a :: b :: rest, h => exact absurd rfl (h a b rest)

/-- All levels from a level up, the root level last. -/
def levels (level : List Digest) : List (List Digest) :=
  if level.length ≤ 1 then [level] else level :: levels (above digest level)
termination_by level.length
decreasing_by rw [length_above]; omega

/-- The root of some levels. -/
def root (levels : List (List Digest)) : Digest :=
  match levels.getLast? with
  | some (top :: _) => top
  | _ => digest []

/-! ### Proofs -/

/-- The index of the other node of a pair. -/
def siblingIndex (index : Nat) : Nat :=
  if index % 2 = 0 then index + 1 else index - 1

/-- The siblings of the node at an index and of those above it; the last level has none. -/
def siblings : List (List Digest) → (index : Nat) → List Digest
  | level :: next :: rest, index =>
    (level[siblingIndex index]?).toList ++ siblings (next :: rest) (index / 2)
  | _, _ => []

/-- The node that a proof leads to from a leaf; each step must name a digest. -/
def climb : Digest → List String → Option Digest
  | node, [] => some node
  | node, sibling :: rest =>
    match Digest.ofHex? sibling with
    | some sibling => climb (parent digest node sibling) rest
    | none => none

/-- Whether a proof leads from a leaf to a root, all of them in hexadecimal. -/
def verify (leaf : String) (proof : List String) (root : String) : Bool :=
  match (Digest.ofHex? leaf).bind (climb digest · proof) with
  | some node => node.hex == String.ofList (root.toList.map Char.toLower)
  | none => false

/-! ### Handing payments off -/

/-- The order of two texts. -/
def compareText (s t : String) : Ordering :=
  if s < t then .lt else if s = t then .eq else .gt

/-- The order in which payments are handed off: by payee, token, program, cycle and amount. -/
def order (a b : PaymentRecord) : Ordering :=
  (compareText a.payee b.payee).then <|
    (compareText a.token b.token).then <|
      (compareText a.programId b.programId).then <|
        (compare a.paymentCycle b.paymentCycle).then
          (compare (Decimal.rank a.amount) (Decimal.rank b.amount))

/-- Payments in the order in which they are handed off. -/
def inOrder (payments : List PaymentRecord) : List PaymentRecord :=
  payments.mergeSort (fun a b => (order a b).isLE)

end PaymentTree

/-- A payment with its leaf and its proof. -/
structure ProvenPayment where
  payment : PaymentRecord
  leaf : String
  proof : List String
deriving DecidableEq

/-- Payments with their proofs, and the root that these lead to. -/
structure Handoff where
  root : String
  rows : List ProvenPayment
deriving DecidableEq

namespace PaymentTree

variable (digest : List UInt8 → Digest)

/-- The payments in order, with their proofs. -/
def handoff (payments : List PaymentRecord) : Outcome Handoff := do
  let ordered := inOrder payments
  let leaves ← ordered.mapM (leaf digest)
  let levels := levels digest leaves
  let rows := (ordered.zip leaves).zipIdx.map fun ((payment, leaf), index) =>
    ⟨payment, leaf.hex, (siblings levels index).map Digest.hex⟩
  return ⟨(root digest levels).hex, rows⟩

end PaymentTree

end Rewards

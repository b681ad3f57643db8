/-
Sources: the values that typed values are read from.

A source knows how to be read as a word, a double, a text or an untyped value, and
how to walk its items or its entries in order.  Reading happens in a monad of the
source's own, since one format has to keep count of what it has read while another
needs nothing but the possibility to fail.  What a record looks like is said once,
over any source (`Shape.Fields`).
-/
import Rewards.Shape.Mismatch
import Rewards.Word

namespace Rewards.Shape

/-- Values of type `ν` that can be read in the monad `m`. -/
class Source (m : Type → Type) (ν : Type) where
  /-- Fail at a value. -/
  reject {α : Type} : ν → Mismatch → m α
  /-- A natural number below a bound, for a type of that name. -/
  whole : (bound : Nat) → (type : String) → ν → m Nat
  /-- A double. -/
  real : ν → m Float
  /-- A text. -/
  text : ν → m String
  /-- Any value at all. -/
  value : ν → m Json
  /-- The value itself, or nothing if it is the absent value. -/
  present? : ν → m (Option ν)
  /-- Pass over a value. -/
  skip : ν → m Unit
  /-- The items of a record that is written without the names of its fields. -/
  positional? : ν → Option (List ν)
  /-- Walk the items of what is expected to be a sequence. -/
  foldItems {σ : Type} : (σ → ν → m σ) → σ → ν → m σ
  /-- Walk the entries of what is expected to be a map, whose keys have an expectation too. -/
  foldEntries {σ : Type} : (expected key : String) → (σ → String → ν → m σ) → σ → ν → m σ

variable {m : Type → Type} [Monad m] {ν : Type} [Source m ν] {α : Type}

/-- A word of 64 bits. -/
def word (v : ν) : m UInt64 := do
  return UInt64.ofNat (← Source.whole (Word.count 64) "u64" v)

/-- A word of 32 bits. -/
def halfWord (v : ν) : m UInt32 := do
  return UInt32.ofNat (← Source.whole (Word.count 32) "u32" v)

/-- A count of things in memory. -/
def count (v : ν) : m Nat :=
  Source.whole (Word.count 64) "usize" v

/-- What `read` makes of a value that is there, nothing otherwise. -/
def optional (read : ν → m α) (v : ν) : m (Option α) := do
  match ← Source.present? v with
  | none => return none
  | some v => return some (← read v)

/-- The items of a sequence. -/
def list (read : ν → m α) (v : ν) : m (List α) := do
  return (← Source.foldItems (fun (read' : List α) v => return (← read v) :: read') [] v).reverse

/-- A map from text, in which the last value of a repeated key counts. -/
def dictionary (read : ν → m α) (v : ν) : m (Dictionary α) :=
  Source.foldEntries "a map" "a string" (fun d key v => return d.insert key (← read v)) .empty v

end Rewards.Shape

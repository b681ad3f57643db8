/-
Running a scheme.

For a cycle of the validity window whose blocks are numbers of a query, a scheme looks
for the files of its table and asks one query of them.  It fails as the search for the
files does; otherwise its answer is that of the query, over those files and no others.
-/
import Mathlib
import Rewards.Proofs.Cycle
import Rewards.Proofs.Query.Draft
import Rewards.Rule.Scheme

namespace Rewards.Scheme

variable {σ : Type} {s : Scheme} {context : Context σ} {range : BlockRange} {state after : σ}

end Rewards.Scheme
